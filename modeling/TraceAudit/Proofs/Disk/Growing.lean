import Mathlib.Data.List.Nodup
import TraceAudit.Proofs.Disk.Listing

/-!
# Files that only grow

* `Disk.GrowsIn` says that no file of a folder goes away or loses octets;
* `Disk.growsIn_appendAt` that writing at the end of a file is such a change.
-/

namespace TraceAudit.Disk

/-- The octets at a path, none when no file can be read there. -/
def content (d : Disk) (path : String) : Bytes :=
  match d.read path with
  | .ok file => file.bytes
  | .error _ => []

/-- The paths of the files in a folder, none when it cannot be listed. -/
def filesIn (d : Disk) (folder : String) : List String :=
  (d.filePaths folder).toOption.getD []

/-- Files of the folder may have come, and octets at the ends of files. -/
def GrowsIn (folder : String) (d d' : Disk) : Prop :=
  ∀ path ∈ d.filesIn folder, path ∈ d'.filesIn folder ∧ d.content path <+: d'.content path

instance (folder : String) (d d' : Disk) : Decidable (GrowsIn folder d d') :=
  inferInstanceAs (Decidable (∀ path ∈ d.filesIn folder, _ ∧ _))

theorem growsIn_refl (folder : String) (d : Disk) : GrowsIn folder d d := by
  intro path hpath
  exact ⟨hpath, List.prefix_rfl⟩

theorem GrowsIn.trans {folder : String} {a b c : Disk} (hab : GrowsIn folder a b)
    (hbc : GrowsIn folder b c) : GrowsIn folder a c := by
  intro path hpath
  rcases hab path hpath with ⟨hmem, hprefix⟩
  rcases hbc path hmem with ⟨hmem', hprefix'⟩
  exact ⟨hmem', hprefix.trans hprefix'⟩

theorem content_of_read {d : Disk} {path : String} {file : File} (h : d.read path = .ok file) :
    d.content path = file.bytes := by
  simp [content, h]

theorem filesIn_of_filePaths {d : Disk} {folder : String} {paths : List String}
    (h : d.filePaths folder = .ok paths) : d.filesIn folder = paths := by
  simp [filesIn, h, Except.toOption]

theorem filePaths_of_fileNames {d : Disk} {folder : String} {names : List String}
    (h : d.fileNames folder = .ok names) :
    d.filePaths folder = .ok ((names.map (Path.join folder)).filter d.isFile) := by
  rw [filePaths, h]
  rfl

/-- A folder that holds a file can be listed. -/
theorem filePaths_of_mem {d : Disk} {folder path : String} (h : path ∈ d.filesIn folder) :
    d.filePaths folder = .ok (d.filesIn folder) := by
  cases hpaths : d.filePaths folder with
  | error fault => simp [filesIn, hpaths, Except.toOption] at h
  | ok paths => rw [filesIn_of_filePaths hpaths]

theorem filesIn_ordered (d : Disk) (folder : String) :
    (d.filesIn folder).Pairwise fun a b => Path.orderKey a < Path.orderKey b := by
  cases hpaths : d.filePaths folder with
  | error fault => simp [filesIn, hpaths, Except.toOption]
  | ok paths =>
    rw [filesIn_of_filePaths hpaths]
    exact filePaths_ordered hpaths

theorem filesIn_nodup (d : Disk) (folder : String) : (d.filesIn folder).Nodup :=
  (filesIn_ordered d folder).imp fun hlt heq => absurd (heq ▸ hlt) (lt_irrefl _)

theorem read_of_mem_filesIn {d : Disk} {folder path : String} (h : path ∈ d.filesIn folder) :
    ∃ file, d.read path = .ok file :=
  read_of_mem_filePaths (filePaths_of_mem h) h

/-- Two files of a folder have different keys. -/
theorem eq_of_orderKey_eq {d : Disk} {folder a b : String} (ha : a ∈ d.filesIn folder)
    (hb : b ∈ d.filesIn folder) (h : Path.orderKey a = Path.orderKey b) : a = b := by
  have hkeys : ((d.filesIn folder).map Path.orderKey).Nodup :=
    List.pairwise_map.2 ((filesIn_ordered d folder).imp fun hlt => ne_of_lt hlt)
  exact List.inj_on_of_nodup_map hkeys ha hb h

/-! ## Writing -/

theorem not_isGiven_of_isNamed {place : Place} (h : place.isNamed = true) :
    place.isGiven = false := by
  cases hlast : place.getLast? with
  | none => simp [Place.isNamed, hlast] at h
  | some step =>
    have hname : Place.isName step = true := by simpa [Place.isNamed, hlast] using h
    rcases Place.isName_iff.1 hname with ⟨-, -, hdots, hslash⟩
    have hmem : step ∈ place := List.mem_of_getLast? hlast
    -- The root and the steps to a parent are no names.
    have hroot : place ≠ Place.root := by
      rintro rfl
      have hstep : "/" = step := by simpa [Place.root] using hlast
      exact hslash (by simp [← hstep])
    have hall : place.all (· == "..") = false := by
      rw [List.all_eq_false]
      exact ⟨step, hmem, by simpa using hdots⟩
    simp [Place.isGiven, hroot, hall]

theorem node?_eq_some {d : Disk} {place : Place} {node : Node} :
    d.node? place = some node ↔
      (place.isGiven = true ∧ node = .folder) ∨
        (place.isGiven = false ∧ (place, node) ∈ d.entries) := by
  -- Places are distinct, so the first entry at a place is the only one.
  have hfind : ∀ entries : List (Place × Node), (entries.map (·.1)).Nodup →
      ((entries.find? fun entry => entry.1 = place).map (·.2) = some node ↔
        (place, node) ∈ entries) := by
    intro entries hdistinct
    induction entries with
    | nil => simp
    | cons entry rest ih =>
      rcases entry with ⟨q, other⟩
      rcases List.nodup_cons.1 hdistinct with ⟨hq, hrest⟩
      by_cases hsame : q = place
      · have hnone : (place, node) ∉ rest := fun hmem =>
          hq (hsame ▸ List.mem_map_of_mem (f := (·.1)) hmem)
        simp [hsame, hnone, eq_comm]
      · have hne : (place, node) ≠ (q, other) := fun heq => hsame (congrArg (·.1) heq).symm
        rw [List.find?_cons_of_neg (by simpa using hsame), ih hrest, List.mem_cons]
        exact ⟨Or.inr, fun h => h.resolve_left hne⟩
  cases hgiven : place.isGiven with
  | true => simp [node?, hgiven, eq_comm]
  | false => simp [node?, hgiven, hfind d.entries d.distinct]

theorem mem_put {d : Disk} {place other : Place} {node found : Node}
    (h : place.isNamed = true) :
    (other, found) ∈ (d.put place node).entries ↔
      (other = place ∧ found = node) ∨ (other ≠ place ∧ (other, found) ∈ d.entries) := by
  by_cases hknown : place ∈ d.entries.map (·.1)
  · -- The node is replaced where it stands.
    rw [put, dif_pos h, dif_pos hknown]
    constructor
    · intro hmem
      rcases List.mem_map.1 hmem with ⟨⟨q, old⟩, hold, heq⟩
      by_cases hq : q = place
      · simp_all
      · simp_all
    · rintro (⟨rfl, rfl⟩ | ⟨hne, hmem⟩)
      · rcases List.mem_map.1 hknown with ⟨entry, hentry, rfl⟩
        exact List.mem_map.2 ⟨entry, hentry, by simp⟩
      · exact List.mem_map.2 ⟨(other, found), hmem, by simp [hne]⟩
  · have hfresh : ∀ old, (place, old) ∉ d.entries := fun old hmem =>
      hknown (List.mem_map_of_mem (f := (·.1)) hmem)
    rw [put, dif_pos h, dif_neg hknown]
    by_cases hother : other = place
    · simp [hother, hfresh]
    · simp [hother]

theorem put_of_not_isNamed {d : Disk} {place : Place} {node : Node}
    (h : ¬place.isNamed = true) : d.put place node = d := by
  rw [put, dif_neg h]

/-- On a way that exists already, no folder has to be made. -/
theorem makeWay_of_walk {d : Disk} {place target : Place} {steps : List String}
    (h : d.walk place steps = .ok target) : d.makeWay place steps = (d, target) := by
  induction steps generalizing place with
  | nil =>
    cases h
    rfl
  | cons step rest ih =>
    rw [walk] at h
    cases hnode : d.node? place with
    | none => simp [hnode] at h
    | some node =>
      cases node with
      | file content => simp [hnode] at h
      | folder =>
        have hensure : d.ensureFolder place = d := by simp [ensureFolder, hnode]
        simp only [hnode] at h
        rw [makeWay, hensure]
        split_ifs at h ⊢ with hstay hup hlong
        · exact ih h
        · exact ih h
        · exact ih h

/-- Folders that stay keep every way open. -/
theorem walk_mono {d d' : Disk} {place target : Place} {steps : List String}
    (hfolders : ∀ q, d.node? q = some .folder → d'.node? q = some .folder)
    (h : d.walk place steps = .ok target) : d'.walk place steps = .ok target := by
  induction steps generalizing place with
  | nil => exact h
  | cons step rest ih =>
    rw [walk] at h ⊢
    cases hnode : d.node? place with
    | none => simp [hnode] at h
    | some node =>
      cases node with
      | file content => simp [hnode] at h
      | folder =>
        simp only [hnode] at h
        simp only [hfolders place hnode]
        split_ifs at h ⊢ with hstay hup hlong
        · exact ih h
        · exact ih h
        · exact ih h

theorem lookup_eq_ok {d : Disk} {path : String} {node : Node} :
    d.lookup path = .ok node ↔
      ('\x00' ∉ path.toList ∧ path ≠ "" ∧ path.utf8ByteSize ≤ pathLimit) ∧
        ∃ place, d.walk (start path) (Path.pieces path) = .ok place ∧
          d.node? place = some node := by
  rw [lookup]
  -- A path is refused for its text before the disk is looked at.
  split_ifs with hnul hempty hlong
  · simp_all
  · simp_all
  · have hshort : ¬path.utf8ByteSize ≤ pathLimit := by omega
    simp [hshort]
  · have hread : '\x00' ∉ path.toList ∧ path ≠ "" ∧ path.utf8ByteSize ≤ pathLimit :=
      ⟨by simpa using hnul, hempty, by omega⟩
    cases hwalk : d.walk (start path) (Path.pieces path) with
    | error fault => simp [bind, Except.bind]
    | ok place =>
      cases hnode : d.node? place with
      | none => simp [bind, Except.bind, hnode]
      | some found => simp [bind, Except.bind, hnode, hread]

theorem read_eq_ok {d : Disk} {path : String} {file : File} :
    d.read path = .ok file ↔ d.lookup path = .ok (.file file) := by
  rw [read]
  cases hnode : d.lookup path with
  | error fault => simp [bind, Except.bind]
  | ok node => cases node <;> simp [bind, Except.bind]

/-! ## Growing -/

/-- A file is listed when it stands in the folder under its name and can be read. -/
theorem mem_filesIn {d : Disk} {folder path : String} :
    path ∈ d.filesIn folder ↔
      ∃ place name file, d.lookup folder = .ok .folder ∧
        d.walk (start folder) (Path.pieces folder) = .ok place ∧
        (place ++ [name], Node.file file) ∈ d.entries ∧ path = Path.join folder name ∧
        (∃ found, d.read path = .ok found) := by
  have hisFile : ∀ p, d.isFile p = true ↔ ∃ found, d.read p = .ok found := by
    intro p
    rw [isFile]
    cases d.read p <;> simp [Except.toOption]
  constructor
  · intro hmem
    have hpaths := filePaths_of_mem hmem
    cases hnames : d.fileNames folder with
    | error fault => simp [filePaths, hnames, bind, Except.bind] at hpaths
    | ok names =>
      have hlisted := Except.ok.inj ((filePaths_of_fileNames hnames).symm.trans hpaths)
      rw [← hlisted, List.mem_filter, List.mem_map, hisFile] at hmem
      rcases hmem with ⟨⟨name, hname, rfl⟩, hread⟩
      rcases namesIn_eq hnames with ⟨place, hlookup, hwalk, rfl⟩
      rcases List.mem_filterMap.1 (List.mem_mergeSort.1 hname) with ⟨⟨q, node⟩, hentry, hlast⟩
      simp only [Option.ite_none_right_eq_some] at hlast
      have hq := List.dropLast_append_getLast? name hlast.2
      -- Folders are left out of the names.
      cases node with
      | folder => simp at hlast
      | file file =>
        refine ⟨place, name, file, hlookup, hwalk, ?_, rfl, hread⟩
        rw [← hlast.1.2, hq]
        exact hentry
  · rintro ⟨place, name, file, hlookup, hwalk, hentry, rfl, hread⟩
    have hnames := fileNames_of_walk hlookup hwalk
    rw [filesIn_of_filePaths (filePaths_of_fileNames hnames), List.mem_filter, List.mem_map, hisFile]
    refine ⟨⟨name, List.mem_mergeSort.2 (List.mem_filterMap.2 ⟨_, hentry, ?_⟩), rfl⟩, hread⟩
    simp

/-- A folder with a file in it is there. -/
theorem has_of_mem_filesIn {d : Disk} {folder path : String} (h : path ∈ d.filesIn folder) :
    d.has folder = true := by
  rcases mem_filesIn.1 h with ⟨-, -, -, hlookup, -⟩
  simp [has, hlookup, Except.toOption]

/-- Nothing stands at the place, or a file does that the new one goes on with. -/
def TakesFile (d : Disk) (place : Place) (new : File) : Prop :=
  ∀ node, d.node? place = some node → ∃ old, node = .file old ∧ old.bytes <+: new.bytes

section Put

variable {d : Disk} {place : Place} {new : File}

/-- No folder goes away. -/
theorem TakesFile.folder (h : d.TakesFile place new) (hnamed : place.isNamed = true) (q : Place)
    (hq : d.node? q = some .folder) : (d.put place (.file new)).node? q = some .folder := by
  have hne : q ≠ place := by
    rintro rfl
    rcases h _ hq with ⟨old, hold, -⟩
    cases hold
  rw [node?_eq_some] at hq ⊢
  exact hq.imp_right fun hmem => ⟨hmem.1, (mem_put hnamed).2 (Or.inr ⟨hne, hmem.2⟩)⟩

/-- What could be read is the new file, or it was left alone. -/
theorem TakesFile.read (h : d.TakesFile place new) (hnamed : place.isNamed = true) {path : String}
    {old : File} (hold : d.read path = .ok old) :
    ∃ file, (d.put place (.file new)).read path = .ok file ∧ old.bytes <+: file.bytes := by
  rw [read_eq_ok, lookup_eq_ok] at hold
  rcases hold with ⟨hpath, q, hwalk, hnode⟩
  have hway := walk_mono (h.folder hnamed) hwalk
  by_cases hq : q = place
  · rcases h _ (hq ▸ hnode) with ⟨old', heq, hprefix⟩
    cases heq
    refine ⟨new, read_eq_ok.2 (lookup_eq_ok.2 ⟨hpath, q, hway, ?_⟩), hprefix⟩
    rw [node?_eq_some, hq]
    exact Or.inr ⟨not_isGiven_of_isNamed hnamed, (mem_put hnamed).2 (Or.inl ⟨rfl, rfl⟩)⟩
  · refine ⟨old, read_eq_ok.2 (lookup_eq_ok.2 ⟨hpath, q, hway, ?_⟩), List.prefix_rfl⟩
    rw [node?_eq_some] at hnode ⊢
    exact hnode.imp_right fun hmem => ⟨hmem.1, (mem_put hnamed).2 (Or.inr ⟨hq, hmem.2⟩)⟩

theorem growsIn_put (h : d.TakesFile place new) (folder : String) :
    GrowsIn folder d (d.put place (.file new)) := by
  by_cases hnamed : place.isNamed = true
  · have hlookup : d.lookup folder = .ok .folder →
        (d.put place (.file new)).lookup folder = .ok .folder := by
      rw [lookup_eq_ok, lookup_eq_ok]
      rintro ⟨hpath, q, hwalk, hnode⟩
      exact ⟨hpath, q, walk_mono (h.folder hnamed) hwalk, h.folder hnamed q hnode⟩
    intro path hmem
    rcases mem_filesIn.1 hmem with ⟨q, name, file, hfolder, hwalk, hentry, rfl, old, hold⟩
    rcases h.read hnamed hold with ⟨found, hfound, hprefix⟩
    have hway := walk_mono (h.folder hnamed) hwalk
    constructor
    · -- The entry is the one that was put, or it is still there.
      by_cases hsame : q ++ [name] = place
      · exact mem_filesIn.2 ⟨q, name, new, hlookup hfolder, hway,
          (mem_put hnamed).2 (Or.inl ⟨hsame, rfl⟩), rfl, found, hfound⟩
      · exact mem_filesIn.2 ⟨q, name, file, hlookup hfolder, hway,
          (mem_put hnamed).2 (Or.inr ⟨hsame, hentry⟩), rfl, found, hfound⟩
    · rw [content_of_read hold, content_of_read hfound]
      exact hprefix
  · rw [put_of_not_isNamed hnamed]
    exact growsIn_refl folder d

end Put

/-- Writing at the end of a file that can be read, or that does not exist while the way to it
does. -/
theorem growsIn_appendAt {d : Disk} {path : String} {place : Place} (folder : String)
    (bytes : Bytes) (time : Int) (hway : d.walk (start path) (Path.pieces path) = .ok place)
    (hfile : d.node? place = none ∨ ∃ file, d.read path = .ok file) :
    GrowsIn folder d (d.appendAt path bytes time) := by
  have hwrite : d.appendAt path bytes time =
      d.put place (.file (File.changedAt time (d.content path ++ bytes))) := by
    rw [appendAt, writeAt, makeWay_of_walk hway]
    rfl
  rw [hwrite]
  have htakes : d.TakesFile place (File.changedAt time (d.content path ++ bytes)) := by
    intro node hnode
    rcases hfile with hnone | ⟨file, hread⟩
    · rw [hnone] at hnode
      cases hnode
    · have hlookup := (lookup_eq_ok.1 (read_eq_ok.1 hread)).2
      rcases hlookup with ⟨q, hwalk, hfound⟩
      have hq : place = q := Except.ok.inj (hway.symm.trans hwalk)
      rw [hq, hfound] at hnode
      cases hnode
      refine ⟨file, rfl, ?_⟩
      rw [content_of_read hread]
      exact List.prefix_append _ _
  exact growsIn_put htakes folder

end TraceAudit.Disk
