import ClassChart.CommandLine.Run

/-!
The program: the command on the files of the disk.
-/
namespace ClassChart

def Errno.known : List Errno :=
  [.noEntry, .denied, .exists, .notDirectory, .isDirectory, .noSpace, .readOnly, .nameTooLong]

def Errno.ofCode (code : Nat) (text : String) : Errno :=
  (Errno.known.find? (·.code = code)).getD (.other code text)

def Errno.ofReport : IO.Error → Errno
  | .noFileOrDirectory _ code text | .alreadyExists _ code text
  | .permissionDenied _ code text | .inappropriateType _ code text
  | .resourceExhausted _ code text | .invalidArgument _ code text
  | .noSuchThing _ code text | .resourceBusy code text
  | .hardwareFault code text | .otherError code text => .ofCode code.toNat text
  | report => .other 5 (toString report)

/-- The answer of the disk to a request about a path. -/
def answerOf {α : Type} (path : String) (request : IO α) : IO (Except OsError α) := do
  match ← request.toBaseIO with
  | .ok value => return .ok value
  | .error e => return .error ⟨.ofReport e, path⟩

/-- The names below a directory.  Links to directories are not followed. -/
partial def namesBelow (path : String) : IO (Tree Unit) := do
  let mut entries : List (String × Tree Unit) := []
  for entry in ← ((← IO.currentDir) / path).readDir do
    let below := entryPath path entry.fileName
    if ← entry.path.isDir then
      if (← entry.path.symlinkMetadata).type != .symlink then
        let tree ← (namesBelow below).toBaseIO
        entries := (entry.fileName, tree.toOption.getD (.directory [])) :: entries
    else
      entries := (entry.fileName, .file ()) :: entries
  return .directory entries

def printLines (stream : IO.FS.Stream) (lines : List String) : IO Unit := do
  lines.forM stream.putStrLn
  stream.flush

/-- Run a procedure on the disk and print the events that are urgent enough. -/
def Procedure.perform {α : Type} (least : Severity) : Procedure α → IO (Except Fault α)
  | .done value => return .ok value
  | .fail fault => return .error fault
  | .report event next => do
      if least.rank ≤ event.severity.rank then
        printLines (← IO.getStdout) [event.line]
      next.perform least
  | .look path next => do
      let place := (← IO.currentDir) / path
      let answer ←
        if ← place.pathExists then pure (some (← place.isDir)) else pure none
      (next answer).perform least
  | .list path next => do
      let answer ←
        if ← ((← IO.currentDir) / path).isDir then pure (← (namesBelow path).toBaseIO).toOption
        else pure none
      (next answer).perform least
  | .read path next => do
      (next (← answerOf path (IO.FS.readBinFile path))).perform least
  | .makeDirectory path next => do
      (next (← answerOf path (IO.FS.createDir path))).perform least
  | .write path content next => do
      (next (← answerOf path (IO.FS.writeBinFile path content))).perform least

end ClassChart

open ClassChart in
def main (arguments : List String) : IO UInt32 := do
  match CommandLine.Request.ofArguments arguments with
  | .error e =>
      printLines (← IO.getStderr) e.report
      return 2
  | .ok .help =>
      printLines (← IO.getStdout) CommandLine.help
      return 0
  | .ok (.draw options) =>
      let environment ← IO.getEnv Settings.fileVariable
      match ← (options.draw environment).perform options.leastSeverity with
      | .ok closing =>
          printLines (← IO.getStdout) closing.lines
          return closing.exitCode.toUInt32
      | .error fault =>
          printLines (← IO.getStderr) [fault.message]
          return 1
