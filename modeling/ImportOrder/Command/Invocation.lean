import ImportOrder.Command.Arguments
import ImportOrder.FileScan

/-!
# Invocations

What a command line asks for: a check, a fix or a classification, or a text about the program itself.
-/

namespace ImportOrder.Command

def helpFlag : Flag := { names := ["-h", "--help"], stops := true }
def versionFlag : Flag := { names := ["--version"], stops := true }
def configFlag : Flag := { names := ["--config"], takesValue := true }
def aliasFlag : Flag := { names := ["--alias"], takesValue := true }
def byFullPathFlag : Flag := { names := ["--alphabetical-by-full-path"] }
def stdinFlag : Flag := { names := ["--stdin"] }
def filenameFlag : Flag := { names := ["--filename"], takesValue := true }
def formatFlag : Flag := { names := ["--format"], takesValue := true, choices := ["stderr", "json"] }

/-- The commands. -/
inductive Name where
  | check
  | fix
  | classify
deriving DecidableEq

namespace Name

def all : List Name := [check, fix, classify]

def text : Name → String
  | check => "check"
  | fix => "fix"
  | classify => "classify"

/-- The flags and operands of a command. -/
def grammar : Name → Grammar
  | check =>
    { flags := [helpFlag, configFlag, aliasFlag, byFullPathFlag, stdinFlag, filenameFlag, formatFlag]
      operands := .any, operandName := "paths" }
  | fix =>
    { flags := [helpFlag, configFlag, aliasFlag, byFullPathFlag], operands := .any,
      operandName := "paths" }
  | classify =>
    { flags := [helpFlag, configFlag, aliasFlag], operands := .some, operandName := "modules" }

/-- What a command is called in messages. -/
def title (name : Name) : String :=
  Settings.programName ++ " " ++ name.text

end Name

/-- The flags and operands before a command. -/
def mainGrammar : Grammar :=
  { flags := [helpFlag, versionFlag], operands := .command, operandName := "command" }

/-- What the flags of a command say. -/
structure Choices where
  optionsPath : String
  aliases : List String
  byFullPath : Option Bool
  operands : List String

/-- What a command line asks for. -/
inductive Invocation where
  | help
  | version
  /-- The arguments are refused; the text names the program or command that refuses them. -/
  | refused (program : String) (error : ArgumentError)
  | check (choices : Choices) (stdin : Bool) (filename : String) (format : Report.Format)
  | fix (choices : Choices)
  | classify (choices : Choices)

/-- The values that a flag is given, in order. -/
def valuesOf (flag : Flag) (events : List Event) : List (Option String) :=
  events.filterMap fun event =>
    match event with
    | .flag given value => if given.names = flag.names then some value else none
    | .operands _ => none

/-- The value that a flag is given last; empty if none. -/
def lastValue (flag : Flag) (events : List Event) : String :=
  ((valuesOf flag events).getLast?.bind id).getD ""

/-- What the events of a command say. An alias flag without a value names the empty alias, which no path has. -/
def Choices.ofEvents (events : List Event) : Choices :=
  { optionsPath := lastValue configFlag events
    aliases := (valuesOf aliasFlag events).map (·.getD "")
    byFullPath := if (valuesOf byFullPathFlag events).isEmpty then none else some true
    operands := events.flatMap fun event =>
      match event with
      | .operands values => values
      | .flag .. => [] }

namespace Invocation

/-- The paths of files and directories that an invocation names. -/
def paths : Invocation → List String
  | check choices stdin .. => choices.optionsPath :: if stdin then [] else choices.operands
  | fix choices => choices.optionsPath :: choices.operands
  | classify choices => [choices.optionsPath]
  | help | version | refused .. => []

/-- Whether an invocation reads standard input. -/
def readsStdin : Invocation → Bool
  | check _ stdin .. => stdin
  | _ => false

/-- What a command with these events asks for. Files or standard input have to be named. -/
def ofEvents (name : Name) (events : List Event) : Invocation :=
  let choices := Choices.ofEvents events
  let stdin := !(valuesOf stdinFlag events).isEmpty
  match name with
  | .classify => .classify choices
  | .check =>
    if choices.operands.isEmpty && !stdin then .refused Settings.programName .noPath
    else
      .check choices stdin (lastValue filenameFlag events)
        (Report.Format.ofName (lastValue formatFlag events))
  | .fix =>
    if choices.operands.isEmpty then .refused Settings.programName .noPath else .fix choices

/-- What the arguments after a command ask for; `leftOver` could not be placed before it. -/
def ofCommand (leftOver : List String) (command : String) (arguments : List String) : Invocation :=
  match Name.all.find? (·.text == command) with
  | none =>
    .refused Settings.programName
      (.invalidChoice mainGrammar.operandName command (Name.all.map Name.text))
  | some name =>
    match name.grammar.parse arguments with
    | .error error => .refused name.title error
    | .ok (.stopped _) => .help
    | .ok (.parsed events more) =>
      let leftOver := leftOver ++ more
      if leftOver.isEmpty then ofEvents name events
      else .refused Settings.programName (.unrecognized leftOver)

/-- What a command line asks for. -/
def ofArguments (arguments : List String) : Invocation :=
  match mainGrammar.parse arguments with
  | .error error => .refused Settings.programName error
  | .ok (.stopped flag) => if flag.names = versionFlag.names then .version else .help
  | .ok (.parsed [.operands (command :: arguments)] leftOver) => ofCommand leftOver command arguments
  | .ok (.parsed _ leftOver) =>
    if leftOver.isEmpty then .help else .refused Settings.programName (.unrecognized leftOver)

end Invocation

end ImportOrder.Command
