/-!
# Wording

The texts that users see, each in one place. A text with gaps is a function of what fills them; the settings show it
with the names of the gaps.
-/

namespace ImportOrder.Wording

/-- A source that cannot be read. -/
def parseError (filepath error : String) : String :=
  "Failed to parse " ++ filepath ++ ": " ++ error

/-- An options file that cannot be used. -/
def configError (path errors : String) : String :=
  "Invalid options in " ++ path ++ ": " ++ errors

/-- A file that cannot be opened. -/
def fileError (filepath error : String) : String :=
  "Cannot read " ++ filepath ++ ": " ++ error

def fixedFile (filepath : String) : String :=
  "fixed " ++ filepath

def unchangedFile (filepath : String) : String :=
  filepath ++ " already in canonical order"

/-- The place of a violation. -/
def location (filepath line column : String) : String :=
  filepath ++ ":" ++ line ++ ":" ++ column

/-- What introduces a hint. -/
def fixPrefix : String := "Fix: "

/-- The hint that a file can be fixed. -/
def fixAvailable (filepath : String) : String :=
  "run `import-groups fix " ++ filepath ++ "` to regroup and sort all imports"

/-! The labels of a summary, and its verdicts. -/

def files : String := "Files:"
def violations : String := "Violations:"
def fixable : String := "fixable"
def clean : String := "All imports are grouped and sorted"
def rejected : String := "Imports need regrouping"

/-- What stands between the blocks of a report. -/
def separator : String := "\n"

/-- What the bars around a summary are drawn with. -/
def barMark : Char := '─'

/-- What marks an import under its line. -/
def caretMark : Char := '^'

end ImportOrder.Wording
