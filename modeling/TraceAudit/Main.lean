import TraceAudit.CommandLine.Response

/-!
# The program

The outer layer of the command line: it takes a picture of the files that an invocation names, runs
the command on it, prints the response and exits. A command that follows a folder first waits until
the folder has been still for the quiet period, or until its time is over.
-/

namespace TraceAudit.Program

/-- How deep the folders of a run are nested. -/
def folderDepth : Nat := 4

/-- Add what stands at a path to a picture of the disk. What cannot be read is left out. -/
def capture : Nat → String → Disk → IO Disk
  | 0, _, disk => pure disk
  | depth + 1, path, disk => do
    let target := (← IO.currentDir) / path
    try
      if ← target.isDir then
        let entries ← target.readDir
        entries.foldlM (fun d entry => capture depth (Path.join path entry.fileName) d)
          (disk.makeFolder path)
      else
        let bytes ← IO.FS.readBinFile target
        let modified := (← target.metadata).modified
        let nanos := modified.sec * File.perSecond + modified.nsec.toNat
        pure (disk.writeAt path bytes.toList nanos)
    catch _ => pure disk

def pathsOf : Command → List String
  | .replay logFolder options | .watch logFolder options => logFolder :: options.file.toList
  | .validate file _ _ => [file]
  | .inspect logFolder => [logFolder]
  | .spans logFolder _ _ _ => [logFolder]

/-- A picture of all that a command reads. -/
def pictureFor (command : Command) : IO Disk :=
  (pathsOf command).foldlM (fun disk path => capture folderDepth path disk) Disk.empty

/-- Take pictures until nothing has changed for `quietMs` milliseconds or `leftMs` are over. -/
def awaitQuiet (command : Command) (pollMs quietMs : Nat) : Nat → Nat → Disk → IO Disk
  | 0, _, disk => pure disk
  | looks + 1, stillMs, disk => do
    if quietMs ≤ stillMs && !disk.entries.isEmpty then pure disk
    else
      IO.sleep (min pollMs 60000).toUInt32
      let next ← pictureFor command
      awaitQuiet command pollMs quietMs looks (if next = disk then stillMs + pollMs else 0) next

/-- The picture that a command is run on. -/
def settledPicture (command : Command) : IO Disk := do
  let disk ← pictureFor command
  match command with
  | .watch _ options =>
    match options.resolve disk with
    | .ok config =>
      let engine := config.engine
      let pollMs := max 1 engine.pollIntervalMs
      awaitQuiet command pollMs engine.quiescenceMs (1000 * engine.timeoutS / pollMs) 0 disk
    | .error _ => pure disk
  | _ => pure disk

def emit (response : Response) : IO UInt32 := do
  IO.print response.out
  IO.eprint response.err
  pure (UInt32.ofNat response.status)

end TraceAudit.Program

def main (args : List String) : IO UInt32 := do
  match TraceAudit.Invocation.ofArguments args with
  | .error stop => TraceAudit.Program.emit (TraceAudit.CommandLine.stopped stop)
  | .ok invocation =>
    let disk ← TraceAudit.Program.settledPicture invocation.command
    TraceAudit.Program.emit (invocation.command.run disk invocation.reporting)
