import Uncaught.Command.Run

/-!
The program. It takes a picture of the files that the arguments lead to, and prints what the library
makes of them.
-/

namespace Uncaught.Main

/-- The entry that names lead to. -/
def entryAt (names : List String) : IO.FS.DirEntry :=
  ⟨Disk.pathOf names.dropLast, names.getLastD "."⟩

/-- The entries below a directory; links are left out, and so is what cannot be read. Files that do not
matter are taken as empty. -/
partial def readBelow (matters : String → Bool) (dir : IO.FS.DirEntry) : IO (List (String × Entry)) := do
  let mut entries := []
  for e in ← dir.path.readDir do
    try
      match (← e.path.symlinkMetadata).type with
      | .file =>
        let bytes ← if matters e.fileName then IO.FS.readBinFile e.path else pure .empty
        entries := (e.fileName, .file bytes) :: entries
      | .dir => entries := (e.fileName, .dir (← readBelow matters e)) :: entries
      | _ => pure ()
    catch _ => pure ()
  return entries

/-- Adds one entry, a directory without what is below it. -/
def addEntry (disk : Disk) (names : List String) : IO Disk := do
  let path := (entryAt names).path
  if ← path.isDir then return disk.insert names (.dir [])
  else if ← path.pathExists then
    try return disk.insert names (.file (← IO.FS.readBinFile path))
    catch _ => return disk
  else return disk

/-- Adds a directory and those above it, with the files that tell their levels. -/
def addLevels (disk : Disk) (names : List String) : IO Disk := do
  let mut disk := disk
  for n in List.range (names.length + 1) do
    let dir := names.take n
    disk ← addEntry disk dir
    for path in Ignore.levelFiles do
      disk ← addEntry disk (dir ++ Path.names path)
  return disk

/-- Adds what a path leads to, with everything below. -/
def addPath (matters : String → Bool) (disk : Disk) (path : String) : IO Disk := do
  let mut disk := disk
  let route := Disk.route disk.here path
  for names in route.dropLast do
    disk ← addLevels disk names
  let names := route.getLastD []
  disk ← addLevels disk names
  let entry := entryAt names
  if ← entry.path.isDir then
    let below ← readBelow matters entry
    return if names.isEmpty then { disk with top := below } else disk.insert names (.dir below)
  else return disk

/-- The files that a task looks at. -/
def picture (task : Command.Task) : IO Disk := do
  let here := (Path.names (← IO.currentDir).toString).filter (· != "")
  let disk : Disk := ⟨[], here⟩
  match task with
  | .issues | .explain _ => return disk
  | .analyze paths _ =>
    let disk ← addPath (fun _ => true) disk (Command.settingsDir disk)
    let settings := Command.loadSettings disk (Command.settingsDir disk)
    (Command.roots disk paths).foldlM (addPath (Command.mayRead settings)) disk

def usage : String :=
  "Usage: " ++ Command.programName ++ " [--json] [-v] <analyze [--suppress ID] [PATH].. | issues | explain ID>"

end Uncaught.Main

open Uncaught in
def main (args : List String) : IO UInt32 := do
  match Command.Invocation.ofArguments args with
  | .error .version =>
    IO.println (Command.programName ++ " " ++ Analyzer.version)
    return 0
  | .error .help =>
    IO.println Main.usage
    return 0
  | .error e =>
    IO.eprintln Main.usage
    return e.exitCode.toUInt32
  | .ok invocation =>
    let outcome := Command.run (← Main.picture invocation.task) invocation
    outcome.errors.forM IO.eprintln
    IO.print outcome.output
    return outcome.exitCode.toUInt32
