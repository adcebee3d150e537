import Mathlib.Data.String.Basic
import TraceAudit.Disk.Basic
import TraceAudit.Proofs.Text.Cutting
import TraceAudit.Source

/-!
# Listing a folder

* `Path.orderKey_join` is the key of something in a folder: the key of the folder and the name;
* `Disk.namesIn_ordered` and `Disk.filePaths_ordered` say that a listing is in strict order;
* `Disk.read_of_mem_filePaths` that everything listed can be read.
-/

namespace TraceAudit

theorem Place.isName_iff {name : String} :
    isName name = true ↔ name ≠ "" ∧ name ≠ "." ∧ name ≠ ".." ∧ '/' ∉ name.toList := by
  simp [isName, and_assoc]

/-- The name of a source is a name in a folder. -/
theorem Source.isName_name (source : Source) : Place.isName source.name = true := by
  cases source with
  | buddy n =>
    have htext : (Source.buddy n).name.toList = "buddy".toList ++ n.toNat.repr.toList := by
      simp [Source.name, toString]
    have hslash : '/' ∉ (Source.buddy n).name.toList := by
      rw [htext, List.mem_append, Nat.toList_repr]
      rintro (hword | hdigit)
      · revert hword
        decide +kernel
      · have hisDigit := Nat.isDigit_of_mem_toDigits (by decide) (by decide) hdigit
        revert hisDigit
        decide
    -- The other names that a step cannot have are shorter.
    have hlong : 5 ≤ (Source.buddy n).name.toList.length := by
      rw [htext, List.length_append]
      exact Nat.le_add_right 5 _
    refine Place.isName_iff.2 ⟨?_, ?_, ?_, hslash⟩ <;>
    · intro heq
      rw [heq] at hlong
      revert hlong
      decide +kernel
  | library => decide +kernel
  | agent => decide +kernel
  | backend => decide +kernel
  | openTelemetry => decide +kernel

namespace Path

theorem pieces_of_isName {name : String} (h : Place.isName name = true) : pieces name = [name] := by
  rw [pieces, Text.splitOn_of_not_mem (Place.isName_iff.1 h).2.2.2]
  simp

theorem isAbsolute_of_isName {name : String} (h : Place.isName name = true) :
    isAbsolute name = false := by
  have hslash := (Place.isName_iff.1 h).2.2.2
  rw [isAbsolute]
  cases hname : name.toList with
  | nil => rfl
  | cons c rest =>
    have hc : c ≠ '/' := fun heq => hslash (by simp [hname, heq])
    simp [hc]

/-- A name behind a slash is one more step. -/
theorem orderKey_append_name {folder : List Char} {name : String} (h : Place.isName name = true) :
    orderKey (String.ofList (folder ++ '/' :: name.toList)) =
      orderKey (String.ofList (folder ++ ['/'])) ++ ["3" ++ name] := by
  rcases Place.isName_iff.1 h with ⟨hempty, hdot, hdots, hslash⟩
  have hpieces : pieces (String.ofList (folder ++ '/' :: name.toList)) =
      (Text.splitOn '/' folder).map String.ofList ++ [name] := by
    simp [pieces, Text.splitOn_append_cons, Text.splitOn_of_not_mem hslash]
  have hfolder : pieces (String.ofList (folder ++ ['/'])) =
      (Text.splitOn '/' folder).map String.ofList ++ [""] := by
    simp [pieces, Text.splitOn_append_cons, Text.splitOn]
  have hstart : startKey (String.ofList (folder ++ '/' :: name.toList)) =
      startKey (String.ofList (folder ++ ['/'])) := by
    rw [startKey, startKey, hpieces, hfolder, isAbsolute, isAbsolute]
    cases hsplit : Text.splitOn '/' folder with
    | nil => exact absurd hsplit (Text.splitOn_ne_nil '/' folder)
    | cons piece rest => cases folder <;> simp
  have hname : name.isEmpty = false := by simpa using hempty
  rw [orderKey, orderKey, hstart, steps, steps, hpieces, hfolder]
  simp [hname, hdot, stepKey, hdots]

/-- A slash at the end of a path makes no step. -/
theorem orderKey_append_slash {folder : List Char} (h : folder ≠ []) :
    orderKey (String.ofList (folder ++ ['/'])) = orderKey (String.ofList folder) := by
  have hfolder : pieces (String.ofList (folder ++ ['/'])) =
      pieces (String.ofList folder) ++ [""] := by
    simp [pieces, Text.splitOn_append_cons, Text.splitOn]
  have hstart : startKey (String.ofList (folder ++ ['/'])) = startKey (String.ofList folder) := by
    rw [startKey, startKey, hfolder, isAbsolute, isAbsolute, pieces]
    cases hsplit : Text.splitOn '/' folder with
    | nil => exact absurd hsplit (Text.splitOn_ne_nil '/' folder)
    | cons piece rest => cases folder <;> simp_all
  rw [orderKey, orderKey, hstart, steps, steps, hfolder]
  simp

/-- The key of something in a folder: the key of the folder, and then the name. -/
theorem orderKey_join (folder : String) {name : String} (h : Place.isName name = true) :
    orderKey (join folder name) = orderKey folder ++ ["3" ++ name] := by
  rw [join, isAbsolute_of_isName h, Bool.false_or]
  -- Three ways to join: to nothing, behind a slash, and with a slash in between.
  by_cases hfolder : folder.isEmpty = true
  · have hnil : folder = "" := by simpa using hfolder
    rcases Place.isName_iff.1 h with ⟨hempty, hdot, hdots, -⟩
    rw [if_pos hfolder, hnil, orderKey, startKey, isAbsolute_of_isName h, steps,
      pieces_of_isName h]
    simp [hempty, hdot, stepKey, hdots, orderKey, startKey, steps, isAbsolute, pieces,
      Text.splitOn]
  · have hne : folder.toList ≠ [] := by simpa using hfolder
    rw [if_neg hfolder]
    by_cases hslash : folder.toList.getLast? = some '/'
    · rcases List.getLast?_eq_some_iff.1 hslash with ⟨front, hfront⟩
      have hjoin : folder ++ name = String.ofList (front ++ '/' :: name.toList) := by
        rw [← String.toList_inj]
        simp [hfront]
      have hsame : folder = String.ofList (front ++ ['/']) := by
        rw [← String.toList_inj]
        simp [hfront]
      rw [if_pos hslash, hjoin, orderKey_append_name h, ← hsame]
    · have hjoin : folder ++ "/" ++ name = String.ofList (folder.toList ++ '/' :: name.toList) := by
        rw [← String.toList_inj]
        simp
      rw [if_neg hslash, hjoin, orderKey_append_name h, orderKey_append_slash hne]
      simp

theorem orderKey_join_lt {folder a b : String} (ha : Place.isName a = true)
    (hb : Place.isName b = true) :
    orderKey (join folder a) < orderKey (join folder b) ↔ a < b := by
  -- Both keys start with the key of the folder.
  have happend : ∀ (key : List String) (x y : String), key ++ [x] < key ++ [y] ↔ x < y := by
    intro key x y
    induction key with
    | nil =>
      rw [List.nil_append, List.nil_append, List.cons_lt_cons_iff]
      exact ⟨fun h => h.resolve_right fun hnil => List.not_lt_nil _ hnil.2, Or.inl⟩
    | cons k rest ih =>
      rw [List.cons_append, List.cons_append, List.cons_lt_cons_self]
      exact ih
  rw [orderKey_join folder ha, orderKey_join folder hb, happend, String.lt_iff_toList_lt,
    String.lt_iff_toList_lt, String.toList_append, String.toList_append]
  exact List.cons_lt_cons_self

end Path

/-! ## Listings -/

namespace Disk

theorem namesIn_eq {d : Disk} {folder : String} {keep : Node → Bool} {names : List String}
    (h : d.namesIn folder keep = .ok names) :
    ∃ place, d.lookup folder = .ok .folder ∧
      d.walk (start folder) (Path.pieces folder) = .ok place ∧
      names = (d.entries.filterMap fun (p, node) =>
        if keep node ∧ p.dropLast = place then p.getLast? else none).mergeSort fun a b => a ≤ b := by
  rw [namesIn] at h
  cases hnode : d.lookup folder with
  | error fault =>
    rw [hnode] at h
    cases h
  | ok node =>
    cases node with
    | file content =>
      rw [hnode] at h
      cases h
    | folder =>
      cases hplace : d.walk (start folder) (Path.pieces folder) with
      | error fault =>
        simp [hnode, hplace, bind, Except.bind] at h
      | ok place =>
        simp only [hnode, hplace, bind, Except.bind] at h
        cases h
        exact ⟨place, rfl, rfl, rfl⟩

theorem namesIn_of_walk {d : Disk} {folder : String} {place : Place}
    (hlookup : d.lookup folder = .ok .folder)
    (hwalk : d.walk (start folder) (Path.pieces folder) = .ok place) (keep : Node → Bool) :
    d.namesIn folder keep = .ok ((d.entries.filterMap fun (p, node) =>
      if keep node ∧ p.dropLast = place then p.getLast? else none).mergeSort fun a b => a ≤ b) := by
  simp [namesIn, hlookup, hwalk, bind, Except.bind]

theorem fileNames_of_walk {d : Disk} {folder : String} {place : Place}
    (hlookup : d.lookup folder = .ok .folder)
    (hwalk : d.walk (start folder) (Path.pieces folder) = .ok place) :
    d.fileNames folder = .ok ((d.entries.filterMap fun (p, node) =>
      if (node != .folder) = true ∧ p.dropLast = place then p.getLast? else none).mergeSort
        fun a b => a ≤ b) :=
  namesIn_of_walk hlookup hwalk fun node => node != .folder

/-- The names in a folder are in strict order, and each is one that a step can have. -/
theorem namesIn_ordered {d : Disk} {folder : String} {keep : Node → Bool} {names : List String}
    (h : d.namesIn folder keep = .ok names) :
    names.Pairwise (· < ·) ∧ ∀ name ∈ names, Place.isName name = true := by
  rcases namesIn_eq h with ⟨place, -, -, rfl⟩
  have hplaces : d.entries.Pairwise fun a b => a.1 ≠ b.1 :=
    List.pairwise_map.1 d.distinct
  -- Two entries of one folder with the same name would stand at the same place.
  have hdistinct : (d.entries.filterMap fun (p, node) =>
      if keep node ∧ p.dropLast = place then p.getLast? else none).Nodup := by
    refine List.pairwise_filterMap.2 (hplaces.imp ?_)
    rintro ⟨p, node⟩ ⟨q, other⟩ hne name hp name' hq rfl
    simp only [Option.ite_none_right_eq_some] at hp hq
    apply hne
    have hpath := List.dropLast_append_getLast? name hp.2
    have hpath' := List.dropLast_append_getLast? name hq.2
    show p = q
    rw [← hpath, ← hpath', hp.1.2, hq.1.2]
  constructor
  · have htrans : ∀ a b c : String,
        decide (a ≤ b) = true → decide (b ≤ c) = true → decide (a ≤ c) = true := by
      intro a b c hab hbc
      exact decide_eq_true (le_trans (of_decide_eq_true hab) (of_decide_eq_true hbc))
    have htotal : ∀ a b : String, (decide (a ≤ b) || decide (b ≤ a)) = true := by
      intro a b
      rw [Bool.or_eq_true, decide_eq_true_iff, decide_eq_true_iff]
      exact le_total a b
    have hunique := (List.mergeSort_perm _ fun a b : String => decide (a ≤ b)).nodup_iff.2 hdistinct
    apply ((List.pairwise_mergeSort htrans htotal _).and hunique).imp
    rintro a b ⟨hle, hne⟩
    exact lt_of_le_of_ne (of_decide_eq_true hle) hne
  · intro name hname
    rcases List.mem_filterMap.1 (List.mem_mergeSort.1 hname) with ⟨⟨p, node⟩, hentry, hlast⟩
    simp only [Option.ite_none_right_eq_some] at hlast
    have hnamed := d.named _ hentry
    simpa [Place.isNamed, hlast.2] using hnamed

theorem fileNames_ordered {d : Disk} {folder : String} {names : List String}
    (h : d.fileNames folder = .ok names) :
    names.Pairwise (· < ·) ∧ ∀ name ∈ names, Place.isName name = true :=
  namesIn_ordered h

/-- The paths of the files in a folder are in strict order. -/
theorem filePaths_ordered {d : Disk} {folder : String} {paths : List String}
    (h : d.filePaths folder = .ok paths) :
    paths.Pairwise fun a b => Path.orderKey a < Path.orderKey b := by
  rw [filePaths] at h
  cases hnames : d.fileNames folder with
  | error fault =>
    rw [hnames] at h
    cases h
  | ok names =>
    rw [hnames] at h
    cases h
    rcases fileNames_ordered hnames with ⟨hsorted, hname⟩
    refine List.Pairwise.filter _ (List.pairwise_map.2 ?_)
    apply hsorted.imp_of_mem
    intro a b ha hb hlt
    exact (Path.orderKey_join_lt (hname _ ha) (hname _ hb)).2 hlt

/-- Everything that is listed can be read. -/
theorem read_of_mem_filePaths {d : Disk} {folder path : String} {paths : List String}
    (h : d.filePaths folder = .ok paths) (hpath : path ∈ paths) :
    ∃ file, d.read path = .ok file := by
  rw [filePaths] at h
  cases hnames : d.fileNames folder with
  | error fault =>
    rw [hnames] at h
    cases h
  | ok names =>
    rw [hnames] at h
    cases h
    have hfile : d.isFile path = true := (List.mem_filter.1 hpath).2
    rw [isFile] at hfile
    cases hread : d.read path with
    | error fault => simp [hread, Except.toOption] at hfile
    | ok file => exact ⟨file, rfl⟩

end Disk
end TraceAudit
