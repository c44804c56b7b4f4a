import TypedClient.CommandLine.Run

/-!
# The program

Carries a command out on the working directory: its files are read, the command is run on them, and
what it changed is written back. Around the working directory only the way to it is known, and
addresses cannot be reached from here and answer nothing.
-/

namespace TypedClient

/-- What a directory entry is, and what lies below it. -/
partial def entriesWithin (outer : Place) (entry : IO.FS.DirEntry) :
    IO (List (Place × FileEntry)) := do
  let place := outer ++ [entry.fileName]
  if ← entry.path.isDir then
    let inner ← (← entry.path.readDir).toList.mapM (entriesWithin place)
    return (place, .directory) :: inner.flatten
  else return [(place, .file (← IO.FS.readBinFile entry.path))]

/-- The working directory with the directories around it, and the files below it. -/
def workingTree : IO FileTree := do
  let directory ← IO.currentDir
  let home := (Path.ofText directory.toString).parts
  let around := (List.range home.length).map fun n => (home.take (n + 1), FileEntry.directory)
  let inner ← (← directory.readDir).toList.mapM (entriesWithin home)
  return ⟨home, around ++ inner.flatten⟩

/-- A place as the name of a file. -/
def placeName (place : Place) : String := "/" ++ "/".intercalate place

/-- Removes what a tree has lost, inner places first. -/
def removeLost (before after : FileTree) : IO Unit := do
  let lost := before.entries.filter fun (place, _) => (after.at? place).isNone
  for (place, entry) in lost.mergeSort fun a b => b.1.length ≤ a.1.length do
    match entry with
    | .file _ => IO.FS.removeFile (placeName place)
    | .directory => IO.FS.removeDir (placeName place)

/-- Whether two entries are alike. -/
def areAlike : FileEntry → FileEntry → Bool
  | .file old, .file new => old.data == new.data
  | old, new => old.isDirectory && new.isDirectory

/-- Writes what a tree has gained, outer places first. -/
def writeGained (before after : FileTree) : IO Unit := do
  let gained := after.entries.filter fun (place, entry) =>
    !(before.at? place).any fun old => areAlike old entry
  for (place, entry) in gained.mergeSort fun a b => a.1.length ≤ b.1.length do
    match entry with
    | .file bytes => IO.FS.writeBinFile (placeName place) bytes
    | .directory => IO.FS.createDir (placeName place)

/-- Runs a command and reports how it ends. -/
def runHere (args : List String) : IO UInt32 := do
  let files ← workingTree
  let outcome := CommandLine.run { files } args
  removeLost files outcome.files
  writeGained files outcome.files
  IO.print outcome.out
  IO.eprint outcome.err
  match outcome.exit with
  | .code n => return n.toUInt32
  | .fault _ =>
    IO.eprintln "error: the document is malformed"
    return 1

end TypedClient

/-- The command line. -/
def main (args : List String) : IO UInt32 := TypedClient.runHere args
