import ImportOrder.Command.Run
import ImportOrder.Runtime
import Std.Time.DateTime

/-!
# The command line

A command runs on a copy of the entries it can reach, and what it has changed there is written back. The copy
is taken of the paths that the command line names, of the options files above them, and of every place that a
run turns out to write to.
-/

namespace ImportOrder.Disk

/-- Adds the entry that the disk holds at a place, a directory without what is in it. -/
def lookAt (fs : FileSystem) (place : List String) : IO FileSystem := do
  if (fs.root.get? place).isSome then return fs
  else
    let path := (← IO.currentDir) / Path.absolute place
    if ← path.isDir then return { fs with root := fs.root.put place (.directory []) }
    else if ← path.pathExists then
      return { fs with root := fs.root.put place (.file (← IO.FS.readBinFile path)) }
    else return fs

/-- Adds the options files of a place and of those above it. -/
def lookAbove (fs : FileSystem) (place : List String) : IO FileSystem :=
  ((Options.upwards place).map (· ++ [Settings.optionsFilename])).foldlM lookAt fs

/-- Adds the source and options files below a place. -/
partial def lookBelow (fs : FileSystem) (place : List String) : IO FileSystem := do
  let fs ← lookAt fs place
  let path := (← IO.currentDir) / Path.absolute place
  if ← path.isDir then
    (← path.readDir).foldlM
      (fun fs entry => do
        let name := entry.fileName
        let isDir ← entry.path.isDir
        if isDir && SourceFiles.skippedDirectories.contains name then return fs
        else if isDir || SourceFiles.isSource name || name == Settings.optionsFilename then
          lookBelow fs (place ++ [name])
        else return fs)
      fs
  else return fs

/-- The places that a path leads through. -/
def placesOn (fs : FileSystem) (path : String) : List (List String) :=
  let names := Path.names path
  (List.range (names.length + 1)).map fun n => Path.follow (fs.startOf path) (names.take n)

/-- The files that are new in a tree or have other content than before. -/
def changes (before after : Tree) : List (List String × ByteArray) :=
  after.files.filter fun (place, content) =>
    match before.get? place with
    | some (.file old) => old != content
    | _ => true

/-- Runs a command on the copy, again and again until it writes only to places that are in the copy or not on
the disk. Gives the outcome and the files to write. -/
partial def settle [Stack] [Yaml.Reader] (surroundings : Command.Surroundings) (invocation : Command.Invocation)
    (fs : FileSystem) : IO (Except Failure Command.Output × List (List String × ByteArray)) := do
  let (outcome, after) := (invocation.run surroundings).run.run fs
  let written := changes fs.root after.root
  let unknown := (written.flatMap fun (place, _) => Options.upwards place).filter fun place =>
    (fs.root.get? place).isNone
  let seen ← unknown.foldlM lookAt fs
  if unknown.any fun place => (seen.root.get? place).isSome then settle surroundings invocation seen
  else return (outcome, written)

/-- Writes a file and makes the directories above it. -/
def write (place : List String) (content : ByteArray) : IO Unit := do
  IO.FS.createDirAll (Path.absolute place.dropLast)
  IO.FS.writeBinFile (Path.absolute place) content

/-- The rest of a stream. -/
partial def readAll (stream : IO.FS.Stream) (done : String) : IO String := do
  let line ← stream.getLine
  if line.isEmpty then return done else readAll stream (done ++ line)

/-- What the clock says now. A scan is too short for it to measure. -/
def now : IO Clock := do
  let time := Std.Time.DateTime.ofTimestampWithZone (← Std.Time.Timestamp.now) .UTC
  return {
    timestamp := Clock.timestampOf (time.year : Int).toNat time.month.val.toNat time.day.val.toNat
      time.hour.val.toNat time.minute.val.toNat time.second.val.toNat (time.nanosecond.val.toNat / 1000)
    elapsed := 0 }

end ImportOrder.Disk

open ImportOrder ImportOrder.Runtime in
/-- Runs the command that the arguments name. -/
def main (arguments : List String) : IO UInt32 := do
  let invocation := Command.Invocation.ofArguments arguments
  let here := (← IO.currentDir).toString
  let current := Path.follow [] (Path.names here)
  let fs : FileSystem := { root := .directory [], current }
  let fs ← Disk.lookAbove (← Disk.lookAt fs current) current
  let fs ← invocation.paths.foldlM
    (fun fs path => do
      let fs ← (Disk.placesOn fs path).foldlM Disk.lookAt fs
      Disk.lookBelow (← Disk.lookAbove fs (fs.resolve path)) (fs.resolve path))
    fs
  let stdin ← if invocation.readsStdin then Disk.readAll (← IO.getStdin) "" else pure ""
  let terminal : Terminal :=
    { noColor := ← IO.getEnv "NO_COLOR", stderrIsTerminal := ← (← IO.getStderr).isTty }
  let surroundings : Command.Surroundings := { clock := ← Disk.now, terminal, stdin := stdin.toList }
  let (outcome, written) ← Disk.settle surroundings invocation fs
  for (place, content) in written do
    Disk.write place content
  match outcome with
  | .ok output =>
    (← IO.getStdout).putStr (String.ofList output.stdout)
    (← IO.getStderr).putStr (String.ofList output.stderr)
    return output.exit.toUInt32
  | .error failure =>
    (← IO.getStderr).putStr (failure.message ++ "\n")
    return 1
