import ImportOrder.Options.File
import ImportOrder.ScanLog

/-!
# Scanning files

A file is read, scanned under the options that apply to it, perhaps fixed, and logged if its options ask for
it. Directories stand for the source files below them.
-/

namespace ImportOrder

/-- What a caller asks of a file scan. An empty `optionsPath` names no options file. -/
structure ScanRequest where
  optionsPath : String := ""
  aliases : List String := []
  byFullPath : Option Bool := none
  writeFix : Bool := false

/-- Scans a file. The name is shown as given. -/
def scanFile [Stack] [Yaml.Reader] (clock : Clock) (request : ScanRequest) (filename : String) :
    Action ScanResult := do
  let path := Path.normalize filename
  let source ← Action.readText path
  let options ← Options.resolveWith path request.optionsPath request.aliases request.byFullPath
  let config ← Options.configure options
  match scan config filename source with
  | .error error => throw (.ofParse error)
  | .ok result =>
    let result ←
      if request.writeFix && result.fix.isSome then do
        Action.writeText path (result.applyFix source)
        pure { result with fixed := true }
      else pure result
    match Options.logDirectory? options with
    | some directory => logScan clock directory (LogEntry.ofResult filename source result)
    | none => pure ()
    return result

namespace SourceFiles

/-- The directories whose content is not source. -/
def skippedDirectories : List String := ["node_modules", ".git", "dist", "build"]

/-- Whether a name has the ending of a source file. -/
def isSource (name : String) : Bool :=
  Settings.extensions.any fun ending => ending.toList.isSuffixOf name.toList

/-- Named things in the order of their names. -/
def sortByName {α : Type} (items : List (String × α)) : List (String × α) :=
  items.mergeSort fun a b => Text.le a.1.toList b.1.toList

mutual

/-- The places of the source files below a directory: those in it, then those in its directories, both in
the order of names. `size` is the number of bytes before a name in the directory. -/
def below (size : Nat) : Tree → List (List String)
  | .file _ => []
  | .directory entries =>
    let inside := (sortByName entries).filterMap fun (name, tree) =>
      if !tree.isDirectory && isSource name then some [name] else none
    inside ++ (sortByName (branches size entries)).flatMap fun (name, places) => places.map (name :: ·)

/-- The source files below each directory of the entries that is not skipped. A directory whose path is too long
cannot be opened and is passed over. -/
def branches (size : Nat) : List (String × Tree) → List (String × List (List String))
  | [] => []
  | (name, tree) :: rest =>
    if tree.isDirectory && !skippedDirectories.contains name && decide (size + name.utf8ByteSize < pathLimit) then
      (name, below (size + name.utf8ByteSize + 1) tree) :: branches size rest
    else branches size rest

end

/-- The files that a path stands for: the source files below it if it is a directory, else itself. -/
def ofPath (path : String) : Action (List String) := do
  let start := Path.ofString path
  match ← Action.lookUp start.render with
  | some (.directory entries) =>
    return (below start.sizeBelow (.directory entries)).map fun place => (place.foldl Path.child start).render
  | _ => return [start.render]

/-- The files that paths stand for, path by path. -/
def ofPaths (paths : List String) : Action (List String) := do
  return (← paths.mapM ofPath).flatten

end SourceFiles

end ImportOrder
