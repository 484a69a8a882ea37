/-
  The command line.

  The files that the arguments name are read, the command runs on them, and the files that
  it changed are written.
-/
import PrimaryEnergy.CommandLine.Commands
import Std.Time

namespace PrimaryEnergy.CommandLine

/-- The names of the files that commands read or write in a bundle. -/
def bundleFiles : List String :=
  [Bundle.settingsFile, Bundle.componentsFile, Bundle.factorsFile, Bundle.completedFile,
   Bundle.preparedFile, Bundle.balanceFile, Bundle.recordFile]

/-- Adds what is at a path, if there is anything and the directories before it are there. -/
def readNext (t : Files) (p : Path) : IO Files := do
  match t.locate p, ← (IO.FS.realPath p.text).toBaseIO with
  | .ok here, .ok place =>
    if ← place.isDir then return (t.makeDirectory p).toOption.getD t
    else return t.put here (.file (.raw (← IO.FS.readFile place)))
  | _, _ => return t

/-- Adds what is at a path and on the way there. -/
def readPath (t : Files) (p : Path) : IO Files := (FileTree.onTheWay p).foldlM readNext t

/-- Reads what the arguments name: files, and the files of bundles. -/
def readFiles (args : List String) : IO Files := do
  let mut t : Files := {}
  for arg in args do
    let p := Path.ofText arg
    t ← readPath t p
    for name in bundleFiles do
      t ← readPath t (p.child name)
  return t

/-- The time, as records tell it. -/
def moment : IO String := do
  let now ← Std.Time.Timestamp.now
  return (Std.Time.DateTime.ofTimestampWithZone now .UTC).format "uuuu-MM-dd'T'HH:mm:ss.SSSSSS"

/-- Writes the files that a command changed. -/
def writeFiles (before after : Files) : IO Unit := do
  let time ← moment
  for (p, c) in after.files do
    unless before.get? p == some (.file c) do
      IO.FS.writeFile p.text (c.text time)

end PrimaryEnergy.CommandLine

/-- Runs the command that the arguments name. -/
def main (args : List String) : IO UInt32 := do
  let files ← PrimaryEnergy.CommandLine.readFiles args
  let out := PrimaryEnergy.CommandLine.run files args
  PrimaryEnergy.CommandLine.writeFiles files out.files
  (← IO.getStdout).putStr out.stdout
  (← IO.getStderr).putStr out.stderr
  return UInt32.ofNat out.exit
