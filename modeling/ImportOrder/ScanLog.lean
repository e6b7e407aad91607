import ImportOrder.Hash.Sha256
import ImportOrder.Settings
import ImportOrder.Storage.Action

/-!
# The scan log

Every scan adds one line of JSON to a log that is only ever appended to.
-/

namespace ImportOrder

/-- What the clock says about a scan: when it is logged, and how many milliseconds it took. -/
structure Clock where
  timestamp : String
  elapsed : Nat

/-- A number with zeros before it up to a width. -/
def Clock.padded (width n : Nat) : String :=
  let digits := (toString n).toList
  String.ofList (List.replicate (width - digits.length) '0' ++ digits)

/-- A universal time as it is logged. A whole second has no fraction. -/
def Clock.timestampOf (year month day hour minute second microsecond : Nat) : String :=
  let date := "-".intercalate [padded 4 year, padded 2 month, padded 2 day]
  let time := ":".intercalate [padded 2 hour, padded 2 minute, padded 2 second]
  let fraction := if microsecond = 0 then "" else "." ++ padded 6 microsecond
  date ++ "T" ++ time ++ fraction ++ "Z"

/-- What is logged of a scan. -/
structure LogEntry where
  file : String
  status : String
  violations : List Value
  source : Text
  fixed : Bool

namespace LogEntry

/-- The hash of a source, shortened. -/
def contentHash (source : Text) : String :=
  Settings.hashMark ++
    String.ofList ((Sha256.hexDigest (String.ofList source).toUTF8.toList).take Settings.hashLength)

/-- The entry as a JSON value. -/
def toValue (clock : Clock) (entry : LogEntry) : Value :=
  Report.object [
    ("timestamp", .text clock.timestamp),
    ("event", .text (if entry.fixed then "fix" else "scan")),
    ("file", .text entry.file),
    ("status", .text entry.status),
    ("violations", .list entry.violations),
    ("code_length_lines", .int (Text.countLines false entry.source)),
    ("code_hash", .text (contentHash entry.source)),
    ("scan_ms", .int clock.elapsed)]

/-- The line of the log. -/
def line (clock : Clock) (entry : LogEntry) : Text :=
  Json.write .compact 0 (entry.toValue clock) ++ ['\n']

/-- The entry about a scan result. -/
def ofResult (filename : String) (source : Text) (result : ScanResult) : LogEntry :=
  { file := filename
    status := result.status.name
    violations := result.diagnostics.map fun d => Report.object
      [("line", .int d.line), ("kind", .text d.rule.name), ("module", .text (String.ofList d.path))]
    source
    fixed := result.fixed }

end LogEntry

/-- The path of the log in a directory. -/
def logPath (directory : String) : String :=
  if directory.toList.getLast? = some '/' then directory ++ Settings.logFilename
  else directory ++ "/" ++ Settings.logFilename

/-- Appends an entry to the log in a directory, which is made if missing. Without a directory nothing is
logged. -/
def logScan (clock : Clock) (directory : String) (entry : LogEntry) : Action Unit := do
  if directory = "" then return ()
  else
    Action.makeDirectories true directory.length directory
    Action.appendText (logPath directory) (entry.line clock)

end ImportOrder
