import TraceAudit.Proofs.Disk.Growing

/-!
# Folders in folders

* `Disk.walk_join`: the way to something in a folder is the way to the folder, and then one more
  step;
* `Disk.mem_folderNames`: a folder that is found in a folder is listed there.
-/

namespace TraceAudit

namespace Path

/-- The steps to something in a folder: those to the folder, and the name. An empty step at the end,
behind a slash, makes way for the name. -/
theorem pieces_join {folder name : String} (hname : Place.isName name = true)
    (hfolder : folder ≠ "") :
    pieces (join folder name) = pieces folder ++ [name] ∨
      ∃ front, pieces folder = front ++ [""] ∧ pieces (join folder name) = front ++ [name] := by
  have hslash := (Place.isName_iff.1 hname).2.2.2
  rw [join, isAbsolute_of_isName hname, Bool.false_or, if_neg (by simpa using hfolder)]
  by_cases hlast : folder.toList.getLast? = some '/'
  · rcases List.getLast?_eq_some_iff.1 hlast with ⟨front, hfront⟩
    refine Or.inr ⟨(Text.splitOn '/' front).map String.ofList, ?_, ?_⟩
    · simp [pieces, hfront, Text.splitOn_append_cons, Text.splitOn]
    · rw [if_pos hlast]
      simp [pieces, hfront, Text.splitOn_append_cons, Text.splitOn_of_not_mem hslash]
  · rw [if_neg hlast]
    exact Or.inl (by simp [pieces, Text.splitOn_append_cons, Text.splitOn_of_not_mem hslash])

/-- A path is no shorter than the folder that it starts with, and has all its characters. -/
theorem join_extends (folder : String) {name : String} (hname : Place.isName name = true) :
    ∃ rest, join folder name = folder ++ rest := by
  rw [join, isAbsolute_of_isName hname, Bool.false_or]
  split_ifs with hempty hslash
  · have hnil : folder = "" := by simpa using hempty
    exact ⟨name, by simp [hnil]⟩
  · exact ⟨name, rfl⟩
  · exact ⟨"/" ++ name, String.append_assoc⟩

theorem join_ne_empty (folder : String) {name : String} (hname : Place.isName name = true) :
    join folder name ≠ "" := by
  have hempty := (Place.isName_iff.1 hname).1
  rw [join]
  split_ifs <;> simp [hempty]

end Path

namespace Disk

variable {d : Disk} {folder name : String}

theorem walk_append (d : Disk) (place : Place) (first rest : List String) :
    d.walk place (first ++ rest) = (d.walk place first).bind (d.walk · rest) := by
  induction first generalizing place with
  | nil => rfl
  | cons step more ih =>
    rw [List.cons_append, walk, walk]
    cases d.node? place with
    | none => rfl
    | some node =>
      cases node with
      | file content => rfl
      | folder =>
        simp only [ih]
        split_ifs <;> rfl

/-- One step under a name leads from a folder to what stands there under the name. -/
theorem walk_name {place target : Place} (hname : Place.isName name = true)
    (h : d.walk place [name] = .ok target) :
    d.node? place = some .folder ∧ target = place ++ [name] := by
  rcases Place.isName_iff.1 hname with ⟨hempty, hdot, hdots, -⟩
  cases hnode : d.node? place with
  | none => simp [walk, hnode] at h
  | some node =>
    cases node with
    | file content => simp [walk, hnode] at h
    | folder =>
      simp only [walk, hnode, hempty, hdot, hdots, or_self, if_false] at h
      split_ifs at h
      cases h
      exact ⟨rfl, rfl⟩

/-- The way to something in a folder is the way to the folder, and then one more step. -/
theorem walk_join (d : Disk) (hname : Place.isName name = true) (hfolder : folder ≠ "") :
    d.walk (start (Path.join folder name)) (Path.pieces (Path.join folder name)) =
      (d.walk (start folder) (Path.pieces folder)).bind (d.walk · [name]) := by
  have hstart : start (Path.join folder name) = start folder := by
    rcases Path.join_extends folder hname with ⟨rest, hjoin⟩
    have hne : folder.toList ≠ [] := by simpa using hfolder
    simp [start, Path.isAbsolute, hjoin, List.head?_append, List.head?_eq_some_head hne]
  rw [hstart]
  rcases Path.pieces_join hname hfolder with hpieces | ⟨front, hfront, hpieces⟩
  · rw [hpieces, walk_append]
  · rw [hpieces, hfront, walk_append, walk_append]
    -- An empty step stays in its place, which has to be a folder for the next step anyway.
    cases d.walk (start folder) front with
    | error fault => rfl
    | ok place =>
      cases hnode : d.node? place with
      | none => simp [Except.bind, walk, hnode]
      | some node => cases node <;> simp [Except.bind, walk, hnode]

/-- Where something is found in a folder, the folder is found. -/
theorem lookup_folder {node : Node} (hname : Place.isName name = true) (hfolder : folder ≠ "")
    (h : d.lookup (Path.join folder name) = .ok node) :
    ∃ place, d.lookup folder = .ok .folder ∧
      d.walk (start folder) (Path.pieces folder) = .ok place ∧
      d.node? (place ++ [name]) = some node := by
  rcases lookup_eq_ok.1 h with ⟨⟨hnul, -, hlength⟩, target, hwalk, hnode⟩
  rw [walk_join d hname hfolder] at hwalk
  cases hplace : d.walk (start folder) (Path.pieces folder) with
  | error fault =>
    rw [hplace] at hwalk
    cases hwalk
  | ok place =>
    rw [hplace] at hwalk
    rcases walk_name hname hwalk with ⟨hthere, rfl⟩
    rcases Path.join_extends folder hname with ⟨rest, hjoin⟩
    rw [hjoin, String.toList_append, List.mem_append, not_or] at hnul
    rw [hjoin, String.utf8ByteSize_append] at hlength
    refine ⟨place, lookup_eq_ok.2 ⟨⟨hnul.1, hfolder, by omega⟩, place, hplace, hthere⟩, rfl, hnode⟩

/-- A folder that is found in a folder is listed there. -/
theorem mem_folderNames (hname : Place.isName name = true) (hfolder : folder ≠ "")
    (h : d.lookup (Path.join folder name) = .ok .folder) :
    ∃ names, d.folderNames folder = .ok names ∧ name ∈ names := by
  rcases lookup_folder hname hfolder h with ⟨place, hlookup, hwalk, hnode⟩
  -- A place under a name is none that is always there, so the folder is among the entries.
  have hnamed : (place ++ [name]).isNamed = true := by simp [Place.isNamed, hname]
  have hentry : (place ++ [name], Node.folder) ∈ d.entries := by
    rcases node?_eq_some.1 hnode with ⟨hgiven, -⟩ | ⟨-, hentry⟩
    · rw [not_isGiven_of_isNamed hnamed] at hgiven
      cases hgiven
    · exact hentry
  refine ⟨_, namesIn_of_walk hlookup hwalk _, ?_⟩
  exact List.mem_mergeSort.2 (List.mem_filterMap.2 ⟨_, hentry, by simp⟩)

end Disk
end TraceAudit
