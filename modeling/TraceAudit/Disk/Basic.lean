import TraceAudit.Disk.Path
import TraceAudit.Text.Utf8
import TraceAudit.Time.Timestamp

/-!
# The disk

A `Disk` is what the files and folders hold at one moment, as seen from the working directory.
Reading is a function of the disk, and whatever changes files gives a new disk.

* `Disk.read` gives the file at a path or the reason why it cannot be read;
* `Disk.has`, `Disk.isFolder`, `Disk.isFile` ask what is there;
* `Disk.fileNames`, `Disk.folderNames` list the files and the folders in a folder by name,
  `Disk.filePaths` gives the paths of the files;
* `Disk.write`, `Disk.append`, `Disk.makeFolder`, `Disk.remove` change it.

All names on a disk are texts. Of a file whose name is none there is only what was read of it
elsewhere, as the `OsPath` of a record.
-/

namespace TraceAudit

/-- A file: its octets and the time of its last change, in nanoseconds since 1970. -/
structure File where
  bytes : Bytes
  modified : Int
deriving DecidableEq, Repr, Inhabited

namespace File

/-- The earliest second that is kept with a file, in 1901. -/
def earliest : Int := -2147483648

/-- The latest second that is kept with a file, in 2446. -/
def latest : Int := 15032385535

/-- The nanoseconds in a second. -/
def perSecond : Int := 1000000000

/-- A file that is changed at a time. Times from the earliest second back and from the latest one on
are kept as the start of these seconds. -/
def changedAt (time : Int) (bytes : Bytes) : File :=
  let second := time.fdiv perSecond
  let modified :=
    if second ≤ earliest then earliest * perSecond
    else if latest ≤ second then latest * perSecond
    else time
  { bytes, modified }

/-- The time of the last change. -/
def time (file : File) : Timestamp := Timestamp.ofEpochNanos file.modified

end File

/-- What stands at a place. -/
inductive Node where
  | file (content : File)
  | folder
deriving DecidableEq, Repr, Inhabited

/-- Why a file cannot be read. -/
inductive DiskFault where
  | nulByte
  | nameTooLong
  | notFound
  | notAFolder
  | isAFolder
  | notText
deriving DecidableEq, Repr

def DiskFault.message : DiskFault → String
  | .nulByte => "file name contained an unexpected NUL byte"
  | .nameTooLong => "File name too long (os error 36)"
  | .notFound => "No such file or directory (os error 2)"
  | .notAFolder => "Not a directory (os error 20)"
  | .isAFolder => "Is a directory (os error 21)"
  | .notText => "stream did not contain valid UTF-8"

/-- A place: the names on the way from the working directory. The way to a folder above it starts
with steps to the parent, and the root has a name of its own, the slash, under which absolute paths
are kept. -/
abbrev Place := List String

namespace Place

def root : Place := ["/"]

/-- The place is the working directory, a folder above it, or the root. -/
def isGiven (place : Place) : Bool := place = root || place.all (· == "..")

/-- The parent of a folder. The root is its own parent. -/
def parent (place : Place) : Place :=
  if place = root then root
  else
    match place.getLast? with
    | none | some ".." => place ++ [".."]
    | some _ => place.dropLast

/-- The step names something in a folder: it neither stays in place nor leads to the parent. -/
def isName (step : String) : Bool :=
  !(step == "" || step == "." || step == "..") && !step.toList.contains '/'

/-- The place is one in a folder, under a name. -/
def isNamed (place : Place) : Bool := place.getLast?.any isName

end Place

/-- The files and folders that are known, each place at most once. -/
structure Disk where
  entries : List (Place × Node)
  distinct : (entries.map (·.1)).Nodup
  named : ∀ entry ∈ entries, entry.1.isNamed = true
deriving DecidableEq, Repr

namespace Disk

def empty : Disk := ⟨[], List.nodup_nil, by simp⟩

instance : Inhabited Disk := ⟨empty⟩

/-- What stands at a place. The working directory and what is above it are folders. -/
def node? (d : Disk) (place : Place) : Option Node :=
  if place.isGiven then some .folder
  else (d.entries.find? fun entry => entry.1 = place).map (·.2)

def start (path : String) : Place := if Path.isAbsolute path then Place.root else []

/-- The most octets of a name in a folder. -/
def nameLimit : Nat := 255

def pathLimit : Nat := 4095

/-- Follow the steps of a path from a place. Every step but the last one has to lead to a
folder. -/
def walk (d : Disk) (place : Place) : List String → Except DiskFault Place
  | [] => .ok place
  | step :: rest =>
    match d.node? place with
    | none => .error .notFound
    | some (.file _) => .error .notAFolder
    | some .folder =>
      if step = "" ∨ step = "." then walk d place rest
      else if step = ".." then walk d place.parent rest
      else if nameLimit < step.utf8ByteSize then .error .nameTooLong
      else walk d (place ++ [step]) rest

def lookup (d : Disk) (path : String) : Except DiskFault Node :=
  if path.toList.contains '\x00' then .error .nulByte
  else if path = "" then .error .notFound
  else if pathLimit < path.utf8ByteSize then .error .nameTooLong
  else do
    let place ← d.walk (start path) (Path.pieces path)
    match d.node? place with
    | some node => .ok node
    | none => .error .notFound

/-! ## Reading -/

def has (d : Disk) (path : String) : Bool := (d.lookup path).toOption.isSome

def isFolder (d : Disk) (path : String) : Bool := (d.lookup path).toOption == some .folder

def read (d : Disk) (path : String) : Except DiskFault File := do
  match ← d.lookup path with
  | .file content => .ok content
  | .folder => .error .isAFolder

def isFile (d : Disk) (path : String) : Bool := (d.read path).toOption.isSome

/-- The text of the file at a path. -/
def readText (d : Disk) (path : String) : Except DiskFault String := do
  let file ← d.read path
  match Utf8.toString? file.bytes with
  | some text => .ok text
  | none => .error .notText

/-- The names, in order, of what stands in a folder and satisfies `keep`. -/
def namesIn (d : Disk) (folder : String) (keep : Node → Bool) : Except DiskFault (List String) := do
  match ← d.lookup folder with
  | .file _ => .error .notAFolder
  | .folder => do
    let place ← d.walk (start folder) (Path.pieces folder)
    let names := d.entries.filterMap fun (p, node) =>
      if keep node ∧ p.dropLast = place then p.getLast? else none
    .ok (names.mergeSort fun a b => a ≤ b)

/-- The names of the files in a folder. -/
def fileNames (d : Disk) (folder : String) : Except DiskFault (List String) :=
  d.namesIn folder fun node => node != .folder

/-- The paths of the files in a folder, in the order of their names. A path that cannot be followed,
since it is too long, is left out. -/
def filePaths (d : Disk) (folder : String) : Except DiskFault (List String) := do
  let names ← d.fileNames folder
  .ok ((names.map (Path.join folder)).filter d.isFile)

/-- The names of the folders in a folder. -/
def folderNames (d : Disk) (folder : String) : Except DiskFault (List String) :=
  d.namesIn folder fun node => node == .folder

/-! ## Changing -/

/-- Put a node at a place, unless the place is always a folder. -/
def put (d : Disk) (place : Place) (node : Node) : Disk :=
  if named : place.isNamed then
    if known : place ∈ d.entries.map (·.1) then
      { entries := d.entries.map fun entry => if entry.1 = place then (place, node) else entry
        distinct := by
          have same : ((·.1) ∘ fun entry : Place × Node =>
              if entry.1 = place then (place, node) else entry) = (·.1) := by
            funext entry
            by_cases h : entry.1 = place <;> simp [h]
          simpa [List.map_map, same] using d.distinct
        named := by
          intro entry member
          rcases List.mem_map.1 member with ⟨old, oldMember, rfl⟩
          by_cases h : old.1 = place
          · simpa [h] using named
          · simpa [h] using d.named old oldMember }
    else
      { entries := d.entries ++ [(place, node)]
        distinct := by
          rw [List.map_append]
          exact List.nodup_append.2
            ⟨d.distinct, by simp, by rintro a ha b hb rfl; simp_all⟩
        named := by
          intro entry member
          rcases List.mem_append.1 member with old | new
          · exact d.named entry old
          · rcases List.mem_singleton.1 new with rfl
            exact named }
  else d

/-- Make a folder at a place, unless something stands there. -/
def ensureFolder (d : Disk) (place : Place) : Disk :=
  if (d.node? place).isSome then d else d.put place .folder

/-- Make the folders on the way along the steps of a path, all but the last one; gives the place of
the last step. -/
def makeWay (d : Disk) (place : Place) : List String → Disk × Place
  | [] => (d, place)
  | step :: rest =>
    let d := d.ensureFolder place
    if step = "" ∨ step = "." then makeWay d place rest
    else if step = ".." then makeWay d place.parent rest
    else makeWay d (place ++ [step]) rest

/-- Write a file at a time in nanoseconds, with the folders on the way to it. -/
def writeAt (d : Disk) (path : String) (bytes : Bytes) (nanos : Int) : Disk :=
  let (d, place) := d.makeWay (start path) (Path.pieces path)
  d.put place (.file (File.changedAt nanos bytes))

/-- Write at the end of a file, which is made when it does not exist. -/
def appendAt (d : Disk) (path : String) (bytes : Bytes) (nanos : Int) : Disk :=
  let old := match d.read path with
    | .ok file => file.bytes
    | .error _ => []
  d.writeAt path (old ++ bytes) nanos

/-- Write a file at the start of a second. -/
def write (d : Disk) (path : String) (bytes : Bytes) (seconds : Int) : Disk :=
  d.writeAt path bytes (seconds * File.perSecond)

def append (d : Disk) (path : String) (bytes : Bytes) (seconds : Int) : Disk :=
  d.appendAt path bytes (seconds * File.perSecond)

/-- Make a folder, with the folders on the way to it. -/
def makeFolder (d : Disk) (path : String) : Disk :=
  let (d, place) := d.makeWay (start path) (Path.pieces path)
  d.ensureFolder place

def remove (d : Disk) (path : String) : Disk :=
  match d.read path, d.walk (start path) (Path.pieces path) with
  | .ok _, .ok place =>
    { entries := d.entries.filter fun entry => entry.1 ≠ place
      distinct := d.distinct.sublist (List.Sublist.map _ List.filter_sublist)
      named := fun entry member => d.named entry (List.mem_filter.1 member).1 }
  | _, _ => d

end Disk
end TraceAudit
