import DoubleEntry.Pattern.Parser
import DoubleEntry.Session

/-! The program. It takes up the files that a run can come to, runs, and writes what the run
says. -/

open DoubleEntry

/-- The file system with nothing but the working directory. -/
def startingFiles : IO FileSystem := do
  let here ← IO.currentDir
  return .ofWorkDir ((Path.parts here.toString).filter Path.isProper)

/-- Takes up what is at a path now, and the directories on the way to it. -/
def takeUp (fs : FileSystem) (path : String) : IO FileSystem := do
  let here ← IO.currentDir
  let parts := Path.parts path
  let mut fs := fs
  for count in [1:parts.length + 1] do
    let leading := "/".intercalate (parts.take count)
    if leading.isEmpty then continue
    let place := here / leading
    if ← place.isDir then fs := fs.write leading .directory
    else if ← place.pathExists then
      let data ← try IO.FS.readBinFile place catch _ => pure .empty
      fs := fs.write leading (.file data.toList)
  return fs

/-- Takes up which files and directories there are below a directory; links are not followed. -/
partial def takeUpBelow (fs : FileSystem) (path : String) : IO FileSystem := do
  let here ← IO.currentDir
  let mut fs := fs
  if !(← (here / path).isDir) then return fs
  for item in ← (here / path).readDir do
    let inner := Path.join path item.fileName
    let place := here / inner
    if (fs.entryOf? inner).isSome then continue
    if !(← place.isDir) then fs := fs.write inner (.file [])
    else if (← IO.FS.realPath place).fileName == some item.fileName then
      fs ← takeUpBelow (fs.write inner .directory) inner
  return fs

/-- The part of a path in front of its first wildcard. -/
def withoutWildcards (path : String) : String :=
  let fixed := (Path.parts path).takeWhile fun part =>
    !part.toList.any fun c => c == '*' || c == '?' || c == '['
  if fixed == [""] then "/" else "/".intercalate fixed

/-- Takes up journals with everything that they include. -/
partial def takeUpJournals (fs : FileSystem) (taken : List String) :
    List String → IO FileSystem
  | [] => return fs
  | path :: rest => do
    if taken.contains path then takeUpJournals fs taken rest
    else
      let mut fs ← takeUp fs path
      let mut found := []
      if let .ok place := fs.resolve path then
        let dir := Place.path place.dropLast
        for line in ((fs.entryAt? place).map Entry.lines).getD [] do
          for target in (line.toOption.bind Source.includeTargets?).getD [] do
            let target := Path.join dir target
            let fixed := withoutWildcards target
            if fixed != target then fs ← takeUpBelow fs fixed
            match Source.expandTarget fs target with
            | .ok paths => found := found ++ paths
            | .error _ => pure ()
      takeUpJournals fs (path :: taken) (found ++ rest)

/-- The files that a request can come to. -/
def takeUpFor : Request → IO FileSystem
  | .run options _ => do
    let fs ← startingFiles
    let fs ← match options.config with
      | some path => takeUp fs path
      | none => pure fs
    match options.configuration fs with
    | .ok config => takeUpJournals fs [] config.sources
    | .error _ => return fs
  | _ => startingFiles

def main (arguments : List String) : IO UInt32 := do
  let fs ← match Request.ofArguments arguments with
    | .ok request => takeUpFor request
    | .error _ => startingFiles
  let outcome := runProgram fs arguments
  (← IO.getStdout).putStr outcome.output
  (← IO.getStderr).putStr outcome.errors
  return outcome.status.toUInt32
