import ImportOrder.Plan
import ImportOrder.Violation
import ImportOrder.Wording

/-!
# Scanning a source

A scan reads a source, finds the violations and plans the one edit that mends them all.
-/

namespace ImportOrder

/-- A violation with its place as shown: lines and columns count from one. -/
structure Diagnostic where
  start : Int
  stop : Int
  line : Int
  column : Int
  rule : Rule
  path : Text
  sourceLine : Text
  fix : Option Edit
deriving DecidableEq

/-- The verdict on a file. -/
inductive Status where
  | passed
  | rejected
deriving DecidableEq, Repr

def Status.name : Status → String
  | passed => "passed"
  | rejected => "rejected"

/-- The outcome of a scan. `fixed` tells that the edit has been written back. -/
structure ScanResult where
  filename : String
  status : Status
  diagnostics : List Diagnostic
  fix : Option Edit
  fixed : Bool := false
deriving DecidableEq

/-- A file whose imports cannot be located. -/
structure ParseError where
  filename : String
  error : SourceError
deriving DecidableEq

def ParseError.message (error : ParseError) : String :=
  Wording.parseError error.filename error.error.message

/-- The name shown for a source that has none. -/
def stdinName : String := "<stdin>"

/-- Resolves a violation to its line, column and source line. -/
def Diagnostic.ofViolation (index : LineIndex) (violation : Violation) : Diagnostic :=
  { start := violation.start
    stop := violation.stop
    line := violation.line + 1
    column := index.columnOf violation.start + 1
    rule := violation.rule
    path := violation.path
    sourceLine := (index.lineText? violation.line).getD []
    fix := violation.fix }

/-- Scans a source. The result has a fix only when there is something to fix. -/
def scan [Stack] (config : Configuration) (filename : String) (source : Text) :
    Except ParseError ScanResult :=
  let filename := if filename = "" then stdinName else filename
  match Document.parse source with
  | .error error => .error ⟨filename, error⟩
  | .ok document =>
    let fix := Plan.plan config source document.statements
    let diagnostics := (Violation.analyze config fix document.statements).map
      (Diagnostic.ofViolation document.index)
    if diagnostics.isEmpty then .ok ⟨filename, .passed, [], none, false⟩
    else .ok ⟨filename, .rejected, diagnostics, fix, false⟩

/-- The source with the planned edit made. -/
def ScanResult.applyFix (result : ScanResult) (source : Text) : Text :=
  match result.fix with
  | some edit => edit.apply source
  | none => source

end ImportOrder
