import ImportOrder.Json.Writer
import ImportOrder.Scan
import ImportOrder.Theme

/-!
# Reports

Scan results as text, with the offending line and a run of carets under it, or as JSON documents, one per
file.
-/

namespace ImportOrder.Report

/-- The code of a role, or nothing without colour. -/
def ink (color : Bool) (role : String) : Text :=
  if color then (Theme.shown (Theme.code Theme.packagedCodes role)).toList else []

/-- A text in the colour of a role. -/
def inked (color : Bool) (role : String) (t : Text) : Text :=
  ink color role ++ t ++ ink color "reset"

def ofInt (n : Int) : Text := (toString n).toList

/-- The number of carets under a line: as wide as the import, not past the end of the line, and at least
one. -/
def underlineWidth (sourceLine : Text) (column width : Int) : Nat :=
  (max 1 (min width (sourceLine.length - (column - 1)))).toNat

/-- The line of carets under a source line. -/
def caretLine (color : Bool) (sourceLine : Text) (column width : Int) : Text :=
  "    ".toList ++ inked color "caret" (List.replicate (column - 1).toNat ' ' ++
    List.replicate (underlineWidth sourceLine column width) Wording.caretMark)

/-- The lines about one violation: its place, the source line and carets if there is one, the message. -/
def violationLines (color : Bool) (filename : String) (line column : Int) (message : String)
    (sourceLine : Text) (width : Int) : List Text :=
  let place := (Wording.location filename (toString line) (toString column)).toList
  let shown :=
    if sourceLine.isEmpty then []
    else ["    ".toList ++ sourceLine, caretLine color sourceLine column width]
  ["  ".toList ++ inked color "file_path" place] ++ shown ++
    ["  ".toList ++ inked color "error" message.toList]

/-- What is said about one violation. -/
def violation (color : Bool) (filename : String) (line column : Int) (message : String)
    (sourceLine : Text) (width : Int) : Text :=
  Text.joinWith ['\n'] (violationLines color filename line column message sourceLine width)

/-- The hint that a file can be fixed. -/
def fixHint (color : Bool) (filename : String) : Text :=
  "  ".toList ++ inked color "fix" (Wording.fixPrefix ++ Wording.fixAvailable filename).toList

/-- The width of the bars around the summary. -/
def barWidth : Nat := 60

/-- The counts at the end of a report. -/
def summary (color : Bool) (files violations fixable : Int) : Text :=
  let bar := inked color "summary_bar" (List.replicate barWidth Wording.barMark)
  let verdict :=
    if violations = 0 then inked color "allowed" Wording.clean.toList
    else inked color "blocked" Wording.rejected.toList
  Text.joinWith ['\n'] [
    '\n' :: bar,
    "  ".toList ++ inked color "bold" Wording.files.toList ++ ' ' :: inked color "info" (ofInt files),
    "  ".toList ++ inked color "bold" Wording.violations.toList ++
      ' ' :: inked color "error" (ofInt violations) ++
      ' ' :: inked color "dim" ('(' :: ofInt fixable ++ ' ' :: Wording.fixable.toList ++ [')']),
    "  ".toList ++ verdict,
    bar]

/-- The blocks about one file: one for each violation, then the hint if the fix is still to be made. -/
def fileParts (color : Bool) (result : ScanResult) : List Text :=
  (result.diagnostics.map fun d =>
    violation color result.filename d.line d.column d.rule.message d.sourceLine (d.stop - d.start)) ++
    if result.fix.isSome && !result.fixed then [fixHint color result.filename] else []

def violationCount (results : List ScanResult) : Nat :=
  (results.flatMap ScanResult.diagnostics).length

def fixableCount (results : List ScanResult) : Nat :=
  (results.filter fun result => result.fix.isSome && !result.fixed).length

/-- The report as text. -/
def text (color : Bool) (results : List ScanResult) : Text :=
  Text.joinWith Wording.separator.toList (results.flatMap (fileParts color) ++
    [summary color results.length (violationCount results) (fixableCount results)]) ++ ['\n']

/-- A map with text keys. -/
def object (entries : List (String × Value)) : Value :=
  .map (entries.map fun (key, value) => (.text key, value))

/-- An edit as a JSON value; no edit is null. -/
def editJson : Option Edit → Value
  | none => .null
  | some edit =>
    object [("start", .int edit.start), ("end", .int edit.stop),
      ("replacement", .text (String.ofList edit.replacement))]

/-- A diagnostic as a JSON value. -/
def diagnosticEntries (d : Diagnostic) : List (Value × Value) :=
  [(.text "line", .int d.line), (.text "column", .int d.column), (.text "start", .int d.start),
    (.text "end", .int d.stop), (.text "kind", .text d.rule.name),
    (.text "module", .text (String.ofList d.path)), (.text "message", .text d.rule.message)]

/-- One file as a JSON value. Every violation carries the file's fix. -/
def documentJson (filename status : String) (diagnostics : List (List (Value × Value)))
    (fix : Option Edit) : Value :=
  object [
    ("status", .text status),
    ("file", .text filename),
    ("violations", .list (diagnostics.map fun entries => .map (Value.assign "fix" (editJson fix) entries))),
    ("summary", object [
      ("violations", .int diagnostics.length),
      ("fixable", .bool (fix.isSome && !diagnostics.isEmpty))])]

/-- A scan result as a JSON value. -/
def resultJson (result : ScanResult) : Value :=
  documentJson result.filename result.status.name (result.diagnostics.map diagnosticEntries) result.fix

/-- The number of blanks a level is indented by. -/
def jsonIndent : Nat := 2

/-- The report as JSON. -/
def json (results : List ScanResult) : Text :=
  Json.write (.indented jsonIndent) 0 (.list (results.map resultJson)) ++ ['\n']

/-- The output formats. -/
inductive Format where
  | text
  | json
deriving DecidableEq

/-- The format of a given name; any name but `json` stands for text. -/
def Format.ofName (name : String) : Format :=
  if name = "json" then json else text

/-- The report in a format. -/
def render (format : Format) (color : Bool) (results : List ScanResult) : Text :=
  match format with
  | .text => text color results
  | .json => json results

end ImportOrder.Report
