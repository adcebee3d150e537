import TraceAudit.Proofs.Store.Resumption
import TraceAudit.Proofs.Store.Salvage

/-!
# A file on its own

A file can be read by itself, without a look at its folder. When it is the only file there, this
gives what a load of the folder gives.

* `Store.aside_folder`: which folder a store is for plays no part in reading a file;
* `Store.load_single` compares both ways to read the only file of a folder;
* `Store.load_nothing` is a load of a folder without files.
-/

namespace TraceAudit.Store

variable {folder path : String} {disk : Disk}

theorem aside_folder (folder : String) : Aside fun s => { s with folder } where
  files _ := rfl
  nextSeq _ := rfl
  withFiles _ _ := rfl
  take s file time entry := by rw [take_eq, take_eq]

/-- A first poll of a folder with one file in it reads the file. -/
theorem poll_single (source : Source) (hsingle : disk.filesIn folder = [path]) :
    (fresh source folder).poll disk = (fresh source folder).ingest disk path := by
  have hlisted : path ∈ disk.filesIn folder := by simp [hsingle]
  rcases Disk.read_of_mem_filesIn hlisted with ⟨file, hread⟩
  rcases poll_eq (fresh source folder) disk with ⟨hstore, hresult⟩
  have hpoll : (fresh source folder).poll disk =
      eachFile (ingestGrown disk) (fresh source folder) (disk.filesIn folder) :=
    Prod.ext hstore (hresult (List.ne_nil_of_mem hlisted))
  rw [hpoll, hsingle, eachFile_single, ingestGrown_of_read hread]
  rfl

/-- The only file of a folder can be read by a store over any folder, and settled after that. This
succeeds, and gives what a load of its own folder gives. -/
theorem load_single (source : Source) (hsingle : disk.filesIn folder = [path]) (other : String) :
    let read := (fresh source other).ingest disk path
    let settled := read.1.flush disk
    (∃ n, read.2 = .ok n) ∧ (∃ n, settled.2 = .ok n) ∧
      settled.1 = { ((fresh source folder).load disk).1 with folder := other } := by
  intro read settled
  have hlisted : path ∈ disk.filesIn folder := by simp [hsingle]
  rcases Disk.read_of_mem_filesIn hlisted with ⟨file, hfile⟩
  have hread : read = ({ ((fresh source folder).poll disk).1 with folder := other },
      ((fresh source folder).poll disk).2) := by
    rw [poll_single source hsingle]
    exact (aside_folder other).readFile (fresh source folder) disk path false
  -- The flush goes on from the poll, and does not look at the folder either.
  have hsettled : settled =
      ({ (((fresh source folder).poll disk).1.flush disk).1 with folder := other },
        (((fresh source folder).poll disk).1.flush disk).2) := by
    simp only [settled, hread]
    exact (aside_folder other).flush ((fresh source folder).poll disk).1 disk
  rcases (load_staged source folder disk).1 with ⟨n, hn⟩
  refine ⟨⟨_, congrArg Prod.snd (readFile_eq hfile rfl rfl)⟩, ⟨n, ?_⟩, ?_⟩
  · rw [hsettled]
    exact hn
  · rw [hsettled, load_fresh]

/-- Where no files are, a load gives nothing. -/
theorem load_nothing (source : Source) (hnone : disk.filesIn folder = []) :
    ((fresh source folder).load disk).1 = fresh source folder := by
  have hpoll : ((fresh source folder).poll disk).1 = fresh source folder := by
    rw [(poll_eq (fresh source folder) disk).1]
    exact congrArg (fun paths => (eachFile (ingestGrown disk) (fresh source folder) paths).1) hnone
  rw [load_fresh, hpoll]
  rfl

end TraceAudit.Store
