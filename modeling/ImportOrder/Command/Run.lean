import ImportOrder.Command.Invocation

/-!
# Running commands

A run gives an exit code and what is written to standard output and standard error. A file that cannot be
scanned is reported, and the other files are scanned all the same.
-/

namespace ImportOrder.Command

/-- What a run leaves behind. -/
structure Output where
  exit : Nat
  stdout : Text := []
  stderr : Text := []

/-- What a run sees of its surroundings. -/
structure Surroundings where
  clock : Clock
  terminal : Terminal
  /-- All of standard input, with its line breaks as they are. -/
  stdin : Text

/-- The version of the program. -/
def version : String := "0.1.0"

/-- How the program is used. -/
def usage : String :=
  "usage: " ++ Settings.programName ++ " [-h] [--version] \x7bcheck,fix,classify\x7d ..."

/-- A line about something that went wrong. -/
def errorLine (message : String) : Text :=
  ("  " ++ message ++ "\n").toList

/-- The line about a failure that a command reports by itself, if it is of that kind: refusals of the file
system, sources that cannot be read and options that are not valid. -/
def reported? (filename : String) : Failure → Option Text
  | .refused .nulInPath _ => none
  | .refused refusal path =>
    some (errorLine (Wording.fileError filename (Failure.refused refusal path).message))
  | .source error hpart => some (errorLine (Failure.source error hpart).message)
  | .options path faults => some (errorLine (Failure.options path faults).message)
  | .yaml path reason => some (errorLine (Failure.yaml path reason).message)
  | .undecodable _ | .scalar _ | .tooDeep | .aliases _ => none

/-- The results of several scans and the lines about those that failed. -/
structure Scans where
  results : List ScanResult := []
  errors : List Text := []

section

variable [Stack] [Yaml.Reader]

/-- Scans files in turn. -/
def scanFiles (clock : Clock) (request : ScanRequest) (scans : Scans) : List String → Action Scans
  | [] => return scans
  | filename :: rest => do
    let scans ←
      tryCatch
        (do
          let result ← scanFile clock request filename
          pure { scans with results := scans.results ++ [result] })
        fun failure =>
          match reported? filename failure with
          | some line => pure { scans with errors := scans.errors ++ [line] }
          | none => throw failure
    scanFiles clock request scans rest

/-- Scans the files that paths stand for. A path is looked up when its turn has come. -/
def scanPaths (clock : Clock) (request : ScanRequest) (scans : Scans) : List String → Action Scans
  | [] => return scans
  | path :: rest => do
    let files ← SourceFiles.ofPath path
    scanPaths clock request (← scanFiles clock request scans files) rest

end

/-- What is asked of each file. -/
def Choices.request (choices : Choices) (writeFix : Bool) : ScanRequest :=
  { optionsPath := choices.optionsPath, aliases := choices.aliases, byFullPath := choices.byFullPath,
    writeFix }

/-- Runs an action; invalid options and sources become a line and the exit code for errors. -/
def orReport (action : Action Output) : Action Output :=
  tryCatch action fun failure =>
    match failure with
    | .refused .. => throw failure
    | failure =>
      match reported? "" failure with
      | some line => return { exit := Settings.exitError, stderr := line }
      | none => throw failure

/-- Reports results and errors. The JSON report goes to standard output, the other to standard error. -/
def report (terminal : Terminal) (format : Report.Format) (scans : Scans) : Output :=
  let text := Report.render format (terminal.hasColor .standardError) scans.results
  let exit :=
    if !scans.errors.isEmpty then Settings.exitError
    else if scans.results.any fun result => !result.diagnostics.isEmpty then Settings.exitViolations
    else Settings.exitOk
  match format with
  | .json => { exit, stdout := text, stderr := scans.errors.flatten }
  | .text => { exit, stderr := scans.errors.flatten ++ text }

/-- Checks standard input. -/
def checkStdin [Stack] [Yaml.Reader] (surroundings : Surroundings) (choices : Choices) (filename : String)
    (format : Report.Format) : Action Output :=
  orReport do
    let options ← Options.resolveWith "." choices.optionsPath choices.aliases choices.byFullPath
    let config ← Options.configure options
    match scan config filename surroundings.stdin with
    | .error error => throw (.ofParse error)
    | .ok result => return report surroundings.terminal format { results := [result] }

/-- The line about a file that was to be fixed. -/
def fixLine (result : ScanResult) : Text :=
  ((if result.fixed then Wording.fixedFile result.filename else Wording.unchangedFile result.filename) ++
    "\n").toList

/-- The line about a module path. -/
def classifyLine (config : Configuration) (path : String) : Text :=
  (path ++ "\t" ++ (config.classify path.toList).name ++ "\n").toList

/-- Prints the group of each module path. -/
def classify [Yaml.Reader] (choices : Choices) : Action Output := do
  let options ←
    tryCatch
      (do
        let options ← Options.resolveWith "." choices.optionsPath choices.aliases none
        pure (Sum.inl options))
      fun failure =>
        match failure with
        | .refused .. => throw failure
        | failure =>
          match reported? "" failure with
          | some line => pure (Sum.inr line)
          | none => throw failure
  match options with
  | .inr line => return { exit := Settings.exitError, stderr := line }
  | .inl options =>
    let config ← Options.configure options
    return { exit := Settings.exitOk, stdout := choices.operands.flatMap (classifyLine config) }

/-- Does what is asked for. -/
def Invocation.run [Stack] [Yaml.Reader] (surroundings : Surroundings) : Invocation → Action Output
  | help => return { exit := Settings.exitOk, stdout := (usage ++ "\n").toList }
  | version =>
    return { exit := Settings.exitOk,
             stdout := (Settings.programName ++ " " ++ Command.version ++ "\n").toList }
  | refused program error =>
    return { exit := Settings.exitError,
             stderr := (usage ++ "\n" ++ program ++ ": error: " ++ error.message ++ "\n").toList }
  | check choices stdin filename format => do
    if stdin then checkStdin surroundings choices filename format
    else
      let scans ← scanPaths surroundings.clock (choices.request false) {} choices.operands
      return report surroundings.terminal format scans
  | fix choices => do
    let scans ← scanPaths surroundings.clock (choices.request true) {} choices.operands
    return { exit := if scans.errors.isEmpty then Settings.exitOk else Settings.exitError
             stdout := scans.results.flatMap fixLine
             stderr := scans.errors.flatten }
  | classify choices => Command.classify choices

/-- Runs the program with arguments. -/
def run [Stack] [Yaml.Reader] (surroundings : Surroundings) (arguments : List String) : Action Output :=
  (Invocation.ofArguments arguments).run surroundings

end ImportOrder.Command
