import ImportOrder.Value.Literal

/-!
# Colours for terminals

A theme maps roles to escape codes through the names of colours. It is read when a code is first needed,
and codes are written only to a terminal and only while the environment does not forbid colour. A theme file
may give any value as a code; it is written as in running text.
-/

namespace ImportOrder

/-- What decides about colour: the value of `NO_COLOR`, if set, and whether standard error is a
terminal. -/
structure Terminal where
  noColor : Option String := none
  stderrIsTerminal : Bool := false

/-- Where coloured text is to go. -/
inductive Target where
  | terminal
  | plain
  /-- Standard error. -/
  | standardError
  /-- Something that cannot tell whether it is a terminal. -/
  | unknown
deriving DecidableEq

/-- Whether codes are written: never while `NO_COLOR` is set to something, else to terminals only. -/
def Terminal.hasColor (terminal : Terminal) (target : Target) : Bool :=
  (terminal.noColor.getD "").isEmpty &&
    match target with
    | .terminal => true
    | .plain | .unknown => false
    | .standardError => terminal.stderrIsTerminal

/-- Escape codes by role. -/
abbrev Codes := List (String × Value)

/-- A theme file that is not built as it should be. -/
inductive ThemeError where
  /-- The file, its colours or its roles are not a map. -/
  | notMap
  /-- A role names a collection in place of a colour. -/
  | notName

namespace Theme

/-- The roles whose colours have their own names. -/
def plainRoles : List String := ["bold", "dim", "reset"]

/-- A value in running text. -/
def shown : Value → String
  | .text s => s
  | value => value.literal

/-- The entries of a map. -/
def entries : Value → Except ThemeError (List (Value × Value))
  | .map entries => .ok entries
  | _ => .error .notMap

/-- The code of a colour; unknown colours have an empty one. -/
def colorCode (colors : List (Value × Value)) : Value → Except ThemeError Value
  | .text name => .ok ((Value.lookup name colors).getD (.text ""))
  | .list _ | .map _ => .error .notName
  | _ => .ok (.text "")

/-- The codes with that of a role set. -/
def setCode (role : String) (code : Value) : Codes → Codes
  | [] => [(role, code)]
  | entry :: rest => if entry.1 = role then (role, code) :: rest else entry :: setCode role code rest

/-- The codes of a theme file. An empty file has only the plain roles, with empty codes. -/
def codesOf (file : Value) : Except ThemeError Codes := do
  let top ← if file.truthy then entries file else pure []
  let colors ← entries ((Value.lookup "ansi" top).getD (.map []))
  let roles ← entries ((Value.lookup "roles" top).getD (.map []))
  let named := roles ++ plainRoles.map fun role => (.text role, .text role)
  named.foldlM
    (fun codes (role, name) => do return setCode (shown role) (← colorCode colors name) codes) []

/-- The colours of the theme that comes with the program. -/
def packagedColors : List (String × String) :=
  [("red", "\x1b[31m"), ("green", "\x1b[32m"), ("yellow", "\x1b[33m"), ("blue", "\x1b[34m"),
    ("magenta", "\x1b[35m"), ("cyan", "\x1b[36m"), ("grey", "\x1b[90m"), ("bold", "\x1b[1m"),
    ("dim", "\x1b[2m"), ("reset", "\x1b[0m")]

/-- The roles of the theme that comes with the program. -/
def packagedRoles : List (String × String) :=
  [("error", "red"), ("warning", "yellow"), ("fix", "green"), ("file_path", "cyan"),
    ("caret", "magenta"), ("info", "blue"), ("summary_bar", "grey"), ("blocked", "red"),
    ("allowed", "green")]

def textMap (pairs : List (String × String)) : Value :=
  .map (pairs.map fun (key, value) => (.text key, .text value))

/-- The theme file that comes with the program. -/
def packaged : Value :=
  .map [(.text "ansi", textMap packagedColors), (.text "roles", textMap packagedRoles)]

/-- The codes of the theme that comes with the program. -/
def packagedCodes : Codes :=
  match codesOf packaged with
  | .ok codes => codes
  | .error _ => []

/-- The code of a role, which is empty for an unknown one. -/
def code (codes : Codes) (role : String) : Value :=
  (codes.lookup role).getD (.text "")

end Theme

/-- A theme in use: its file, if there is one, and its codes once they have been read. -/
structure Theme where
  file : Option Value
  codes : Option Codes := none

namespace Theme

/-- The codes, read now if they have not been before. -/
def load (theme : Theme) : Except ThemeError (Codes × Theme) :=
  match theme.codes, theme.file with
  | some codes, _ => .ok (codes, theme)
  | none, none => .ok ([], { theme with codes := some [] })
  | none, some file => (codesOf file).map fun codes => (codes, { theme with codes := some codes })

/-- The code of a role on a target; without colour it is empty and nothing is read. -/
def codeFor (theme : Theme) (color : Bool) (role : String) : Except ThemeError (Value × Theme) :=
  if color then (theme.load).map fun (codes, theme) => (code codes role, theme)
  else .ok (.text "", theme)

/-- A text in the colour of a role; a code that does not count as true leaves it as it is. -/
def paint (theme : Theme) (color : Bool) (role text : String) : Except ThemeError (String × Theme) := do
  let (start, theme) ← theme.codeFor color role
  if start.truthy then
    let (reset, theme) ← theme.codeFor color "reset"
    return (shown start ++ text ++ shown reset, theme)
  else return (text, theme)

end Theme

end ImportOrder
