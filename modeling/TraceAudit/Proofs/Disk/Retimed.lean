import TraceAudit.Proofs.Disk.Growing

/-!
# Folders that differ in file times

* `Node.untimed` forgets when a file was changed;
* `Disk.SameBelow` says that two disks hold the same in a folder but for these times, whatever else
  they hold;
* `Disk.SameBelow.read` and its companions say so of each way to look at the folder.
-/

namespace TraceAudit

/-- Results that agree in what is made of them are the same failure, or both are successes. -/
theorem results_of_map_eq {ε α β : Type} {f : α → β} {x y : Except ε α} (h : x.map f = y.map f) :
    (∃ e, x = .error e ∧ y = .error e) ∨ ∃ a b, x = .ok a ∧ y = .ok b ∧ f a = f b := by
  cases x with
  | error e =>
    cases y with
    | error e' =>
      cases h
      exact Or.inl ⟨e, rfl, rfl⟩
    | ok b => cases h
  | ok a =>
    cases y with
    | error e => cases h
    | ok b => exact Or.inr ⟨a, b, rfl, rfl, Except.ok.inj h⟩

/-- What stands at a place, without the time of its last change. -/
def Node.untimed : Node → Node
  | .file content => .file { content with modified := 0 }
  | .folder => .folder

/-- A way down from a folder: no step of it leads to a parent. -/
def Path.IsDown (name : String) : Prop := isAbsolute name = false ∧ ".." ∉ pieces name

instance (name : String) : Decidable (Path.IsDown name) :=
  inferInstanceAs (Decidable (_ ∧ _))

/-- The paths of a folder and of what is in it, at any depth. -/
inductive Path.Below (folder : String) : String → Prop
  | here : Below folder folder
  | down {path name : String} : Below folder path → IsDown name → Below folder (join path name)

theorem Path.isDown_of_isName {name : String} (h : Place.isName name = true) : IsDown name := by
  refine ⟨isAbsolute_of_isName h, ?_⟩
  rw [pieces_of_isName h]
  simpa using Ne.symm (Place.isName_iff.1 h).2.2.1

namespace Disk

/-- In a folder two disks hold the same, but for the times of files. -/
structure SameBelow (folder : String) (d d' : Disk) : Prop where
  lookup : ∀ path, Path.Below folder path →
    (d.lookup path).map Node.untimed = (d'.lookup path).map Node.untimed
  names : ∀ path, Path.Below folder path → d.fileNames path = d'.fileNames path

namespace SameBelow

variable {folder path : String} {d d' : Disk}

theorem symm (h : SameBelow folder d d') : SameBelow folder d' d :=
  ⟨fun path hpath => (h.lookup path hpath).symm, fun path hpath => (h.names path hpath).symm⟩

/-- Looks at a path fail alike, or find a folder in both cases, or files with the same octets. -/
theorem lookup_cases (h : SameBelow folder d d') (hpath : Path.Below folder path) :
    (∃ fault, d.lookup path = .error fault ∧ d'.lookup path = .error fault) ∨
      (d.lookup path = .ok .folder ∧ d'.lookup path = .ok .folder) ∨
      ∃ file file', d.lookup path = .ok (.file file) ∧ d'.lookup path = .ok (.file file') ∧
        file.bytes = file'.bytes := by
  rcases results_of_map_eq (h.lookup path hpath) with
    ⟨fault, hleft, hright⟩ | ⟨node, node', hleft, hright, hnodes⟩
  · exact Or.inl ⟨fault, hleft, hright⟩
  · cases node with
    | folder =>
      cases node' with
      | folder => exact Or.inr (Or.inl ⟨hleft, hright⟩)
      | file file' => cases hnodes
    | file file =>
      cases node' with
      | folder => cases hnodes
      | file file' =>
        have hbytes : file.bytes = file'.bytes := by
          injection hnodes with hfiles
          injection hfiles
        exact Or.inr (Or.inr ⟨file, file', hleft, hright, hbytes⟩)

theorem has (h : SameBelow folder d d') (hpath : Path.Below folder path) :
    d.has path = d'.has path := by
  rw [Disk.has, Disk.has]
  rcases h.lookup_cases hpath with ⟨fault, hleft, hright⟩ | ⟨hleft, hright⟩ |
    ⟨file, file', hleft, hright, -⟩ <;> simp [hleft, hright, Except.toOption]

theorem isFolder (h : SameBelow folder d d') (hpath : Path.Below folder path) :
    d.isFolder path = d'.isFolder path := by
  rw [Disk.isFolder, Disk.isFolder]
  rcases h.lookup_cases hpath with ⟨fault, hleft, hright⟩ | ⟨hleft, hright⟩ |
    ⟨file, file', hleft, hright, -⟩ <;> simp [hleft, hright, Except.toOption]

/-- A file that is read has the same octets on both disks, or it is read on neither. -/
theorem read (h : SameBelow folder d d') (hpath : Path.Below folder path) :
    (d.read path).map File.bytes = (d'.read path).map File.bytes := by
  rw [Disk.read, Disk.read]
  rcases h.lookup_cases hpath with ⟨fault, hleft, hright⟩ | ⟨hleft, hright⟩ |
    ⟨file, file', hleft, hright, hbytes⟩ <;> rw [hleft, hright]
  · exact congrArg Except.ok hbytes

theorem readText (h : SameBelow folder d d') (hpath : Path.Below folder path) :
    d.readText path = d'.readText path := by
  rw [Disk.readText, Disk.readText]
  rcases results_of_map_eq (h.read hpath) with
    ⟨fault, hleft, hright⟩ | ⟨file, file', hleft, hright, hbytes⟩
  · simp only [hleft, hright, bind, Except.bind]
  · simp only [hleft, hright, bind, Except.bind, hbytes]

theorem isFile (h : SameBelow folder d d') (hpath : Path.Below folder path) :
    d.isFile path = d'.isFile path := by
  rw [Disk.isFile, Disk.isFile]
  rcases results_of_map_eq (h.read hpath) with
    ⟨fault, hleft, hright⟩ | ⟨file, file', hleft, hright, -⟩
  · rw [hleft, hright]
  · simp only [hleft, hright, Except.toOption, Option.isSome_some]

/-- The same files are listed, and all of them lie in the folder. -/
theorem filePaths (h : SameBelow folder d d') (hpath : Path.Below folder path) :
    d.filePaths path = d'.filePaths path := by
  rw [Disk.filePaths, Disk.filePaths, ← h.names path hpath]
  cases hnames : d.fileNames path with
  | error fault => rfl
  | ok names =>
    have hisFile : ∀ p ∈ names.map (Path.join path), d.isFile p = d'.isFile p := by
      intro p hp
      rcases List.mem_map.1 hp with ⟨name, hname, rfl⟩
      have hdown := Path.isDown_of_isName ((fileNames_ordered hnames).2 name hname)
      exact h.isFile (hpath.down hdown)
    simp only [bind, Except.bind]
    rw [List.filter_congr hisFile]

theorem filesIn (h : SameBelow folder d d') (hpath : Path.Below folder path) :
    d.filesIn path = d'.filesIn path := by
  rw [Disk.filesIn, Disk.filesIn, h.filePaths hpath]

end SameBelow

/-- The files of a folder lie below it. -/
theorem below_of_mem_filesIn {folder path file : String} {d : Disk}
    (hpath : Path.Below folder path) (h : file ∈ d.filesIn path) : Path.Below folder file := by
  cases hnames : d.fileNames path with
  | error fault =>
    simp [Disk.filesIn, Disk.filePaths, hnames, bind, Except.bind, Except.toOption] at h
  | ok names =>
    rw [filesIn_of_filePaths (filePaths_of_fileNames hnames)] at h
    rcases List.mem_map.1 (List.mem_of_mem_filter h) with ⟨name, hname, rfl⟩
    exact hpath.down (Path.isDown_of_isName ((fileNames_ordered hnames).2 name hname))

/-! ## Setting file times -/

/-- What is on two disks is the same, but for the times of files. -/
def SameEntries (d d' : Disk) : Prop :=
  d.entries.map (fun entry => (entry.1, entry.2.untimed)) =
    d'.entries.map fun entry => (entry.1, entry.2.untimed)

instance (d d' : Disk) : Decidable (SameEntries d d') := inferInstanceAs (Decidable (_ = _))

/-- The name under which an entry is listed in a folder. -/
def listedIn (place : Place) (entry : Place × Node) : Option String :=
  if (entry.2 != .folder) = true ∧ entry.1.dropLast = place then entry.1.getLast? else none

section SameEntries

variable {d d' : Disk} (h : SameEntries d d')

include h

theorem SameEntries.node? (place : Place) :
    (d.node? place).map Node.untimed = (d'.node? place).map Node.untimed := by
  have hfind : ∀ entries : List (Place × Node),
      ((entries.find? fun entry => entry.1 = place).map (·.2)).map Node.untimed =
        ((entries.map fun entry => (entry.1, entry.2.untimed)).find?
          fun entry => entry.1 = place).map (·.2) := by
    intro entries
    rw [List.find?_map, Option.map_map, Option.map_map]
    rfl
  rw [Disk.node?, Disk.node?]
  split
  · rfl
  · rw [hfind, hfind, h]

theorem SameEntries.walk (place : Place) (steps : List String) :
    d.walk place steps = d'.walk place steps := by
  induction steps generalizing place with
  | nil => rfl
  | cons step rest ih =>
    have hnode := h.node? place
    rw [Disk.walk, Disk.walk]
    cases hleft : d.node? place with
    | none =>
      rw [hleft] at hnode
      have hright : d'.node? place = none := by simpa using hnode.symm
      rw [hright]
    | some node =>
      rw [hleft] at hnode
      rcases Option.map_eq_some_iff.1 hnode.symm with ⟨node', hright, hnodes⟩
      rw [hright]
      -- Both are folders, or none of them is.
      cases node <;> cases node' <;> simp only [Node.untimed, reduceCtorEq] at hnodes
      · rfl
      · simp only [ih]

theorem SameEntries.lookup (path : String) :
    (d.lookup path).map Node.untimed = (d'.lookup path).map Node.untimed := by
  rw [Disk.lookup, Disk.lookup, h.walk]
  split_ifs
  · rfl
  · rfl
  · rfl
  · cases d'.walk (start path) (Path.pieces path) with
    | error fault => rfl
    | ok place =>
      have hnode := h.node? place
      simp only [bind, Except.bind]
      cases hleft : d.node? place <;> cases hright : d'.node? place <;>
        rw [hleft, hright] at hnode
      · cases hnode
      · cases hnode
      · exact congrArg Except.ok (Option.some.inj hnode)

theorem SameEntries.fileNames (path : String) : d.fileNames path = d'.fileNames path := by
  -- A name is listed by what stands under it, not by the time.
  have hnames : ∀ (place : Place) (entries : List (Place × Node)),
      entries.filterMap (listedIn place) =
        (entries.map fun entry => (entry.1, entry.2.untimed)).filterMap (listedIn place) := by
    intro place entries
    rw [List.filterMap_map]
    apply List.filterMap_congr
    rintro ⟨p, node⟩ -
    cases node <;> rfl
  have hlookup := h.lookup path
  rw [Disk.fileNames, Disk.fileNames, namesIn, namesIn, ← h.walk]
  rcases results_of_map_eq hlookup with
    ⟨fault, hleft, hright⟩ | ⟨node, node', hleft, hright, hnodes⟩
  · rw [hleft, hright]
    rfl
  · rw [hleft, hright]
    cases node <;> cases node' <;> simp only [Node.untimed, reduceCtorEq] at hnodes
    · rfl
    · cases d.walk (start path) (Path.pieces path) with
      | error fault => rfl
      | ok place =>
        have hboth := (hnames place d.entries).trans
          ((congrArg _ h).trans (hnames place d'.entries).symm)
        exact congrArg (fun names => Except.ok (names.mergeSort fun a b => a ≤ b)) hboth

/-- Disks that differ in file times only hold the same in every folder. -/
theorem SameEntries.sameBelow (folder : String) : SameBelow folder d d' :=
  ⟨fun path _ => h.lookup path, fun path _ => h.fileNames path⟩

end SameEntries

end Disk
end TraceAudit
