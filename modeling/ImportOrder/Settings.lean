import ImportOrder.Options.Configuration
import ImportOrder.Report

/-!
# Settings

The texts and constants of the program as one tree that can be asked by dotted keys.
-/

namespace ImportOrder

/-- Why a setting cannot be had. -/
inductive SettingsError where
  /-- The tree is not a map. -/
  | notMap (root : Value)
  /-- A part of the key names nothing. -/
  | missing (key part : String)
  /-- The setting has another type than the one asked for. -/
  | wrongType (expected key : String) (value : Value)

def SettingsError.message : SettingsError → String
  | notMap root => "defaults.yaml must be a YAML mapping, got " ++ root.typeName
  | missing key part =>
    "Config key not found: " ++ Quoted.ofString key ++ " (missing segment: " ++ Quoted.ofString part ++ ")"
  | wrongType expected key value =>
    "Expected " ++ expected ++ " for " ++ Quoted.ofString key ++ ", got " ++ value.typeName

namespace Settings

/-- The name of the program. -/
def programName : String := "import-groups"

/-- The name of a project's options file. -/
def optionsFilename : String := ".import_groups.yaml"

/-- The name of the scan log. -/
def logFilename : String := "import_groups_scans.jsonl"

/-- The endings of the files that a directory is searched for. -/
def extensions : List String := [".js", ".jsx", ".mjs", ".cjs", ".ts", ".tsx", ".mts", ".cts"]

def exitOk : Nat := 0
def exitViolations : Nat := 1
def exitError : Nat := 2

/-- What a content hash is introduced by. -/
def hashMark : String := "sha256:"

/-- The number of digits of a content hash that are kept. -/
def hashLength : Nat := 16

def texts (items : List String) : Value :=
  .list (items.map .text)

/-- The tree of settings. -/
def packaged : Value :=
  Report.object [
    ("cli", Report.object [
      ("prog_name", .text programName),
      ("description", .text
        "Check and fix the grouping, ordering and sorting of JavaScript/TypeScript imports")]),
    ("statuses", Report.object [
      ("passed", .text Status.passed.name), ("rejected", .text Status.rejected.name)]),
    ("formats", Report.object [
      ("default", .text "stderr"), ("stderr", .text "stderr"), ("json", .text "json")]),
    ("exit_codes", Report.object [
      ("ok", .int exitOk), ("violations", .int exitViolations), ("error", .int exitError)]),
    ("options", Report.object [
      ("alias_prefix", .text Options.aliasPrefixKey),
      ("aliases", .text Options.aliasesKey),
      ("sort_by_full_path", .text Options.byFullPathKey),
      ("logging", .text Options.loggingKey),
      ("known_keys", texts Options.knownKeys),
      ("logging_keys", texts Options.loggingKeys)]),
    ("filenames", Report.object [
      ("project_config", .text optionsFilename), ("scan_log", .text logFilename),
      ("theme", .text "theme.yaml")]),
    ("directories", Report.object [("cli", .text "cli")]),
    ("extensions", texts extensions),
    ("defaults", Report.object [
      ("stdin_filename", .text stdinName), ("json_indent", .int Report.jsonIndent),
      ("hash_truncation_length", .int hashLength)]),
    ("violations", Report.object
      ([Rule.outOfOrder, .notSeparated, .notGrouped, .notSorted].map fun rule =>
        (rule.name, .text rule.message))),
    ("messages", Report.object [
      ("fix_prefix", .text Wording.fixPrefix),
      ("fix_available", .text (Wording.fixAvailable "\x7bfilepath\x7d")),
      ("parse_error", .text (Wording.parseError "\x7bfilepath\x7d" "\x7berror\x7d")),
      ("config_error", .text (Wording.configError "\x7bpath\x7d" "\x7berrors\x7d")),
      ("file_error", .text (Wording.fileError "\x7bfilepath\x7d" "\x7berror\x7d")),
      ("fixed_file", .text (Wording.fixedFile "\x7bfilepath\x7d")),
      ("unchanged_file", .text (Wording.unchangedFile "\x7bfilepath\x7d"))]),
    ("labels", Report.object [
      ("files", .text Wording.files), ("violations", .text Wording.violations),
      ("fixable", .text Wording.fixable), ("clean", .text Wording.clean),
      ("rejected", .text Wording.rejected)]),
    ("formatting", Report.object [
      ("location_template", .text (Wording.location "\x7bfilepath\x7d" "\x7bline\x7d" "\x7bcolumn\x7d")),
      ("violation_separator", .text Wording.separator), ("summary_bar_char", .text Wording.barMark.toString),
      ("summary_bar_width", .int Report.barWidth), ("caret_char", .text Wording.caretMark.toString),
      ("utc_offset_source", .text "+00:00"), ("utc_offset_replacement", .text "Z"),
      ("hash_prefix", .text hashMark), ("json_separators", texts [",", ":"])])]

/-- Follows the parts of a key down from a node. -/
def descend (key : String) : List Text → Value → Except SettingsError Value
  | [], node => .ok node
  | part :: rest, node =>
    match node with
    | .map entries =>
      match Value.lookup (String.ofList part) entries with
      | some next => descend key rest next
      | none => .error (.missing key (String.ofList part))
    | _ => .error (.missing key (String.ofList part))

/-- The setting at a dotted key. -/
def get (root : Value) (key : String) : Except SettingsError Value :=
  match root with
  | .map _ => descend key (Text.splitOn '.' key.toList) root
  | _ => .error (.notMap root)

/-- The setting at a key, which has to be a text. -/
def getText (root : Value) (key : String) : Except SettingsError String := do
  match ← get root key with
  | .text s => return s
  | value => throw (.wrongType "str" key value)

/-- The setting at a key, which has to be an integer. -/
def getInt (root : Value) (key : String) : Except SettingsError Int := do
  match ← get root key with
  | .int n => return n
  | value => throw (.wrongType "int" key value)

/-- The setting at a key, which has to be a list. -/
def getList (root : Value) (key : String) : Except SettingsError (List Value) := do
  match ← get root key with
  | .list items => return items
  | value => throw (.wrongType "list" key value)

end Settings

end ImportOrder
