import ImportOrder.Settings
import ImportOrder.Storage.Action

/-!
# Options files

The options that apply to a file come from the nearest options file above it, unless one is named. Options are
valid once loaded.
-/

namespace ImportOrder.Options

/-- A place and all places above it, nearest first. -/
def upwards (place : List String) : List (List String) :=
  (List.range (place.length + 1)).map fun n => place.take (place.length - n)

/-- Where the search for options begins: at the path itself if it is a directory, else above it. -/
def searchStart (path : String) : Action (List String) := do
  if path.toList.contains '\x00' then Action.refuse .nulInPath path
  else
    let place := (← get).resolve path
    match ← Action.lookUp (Path.absolute place) with
    | some (.directory _) => return place
    | _ => return place.dropLast

/-- The place of the first options file in directories that are looked at in turn. -/
def findIn : List (List String) → Action (Option (List String))
  | [] => return none
  | directory :: rest => do
    let place := directory ++ [Settings.optionsFilename]
    match ← Action.lookUp (Path.absolute place) with
    | some (.file _) => return some place
    | _ => findIn rest

/-- The place of the nearest options file for a path. -/
def find (path : String) : Action (Option (List String)) := do
  findIn (upwards (← searchStart path))

/-- The value of a YAML file. -/
def readYaml [Yaml.Reader] (path : String) : Action (Except Yaml.Error Value) := do
  return Yaml.Reader.read (← Action.readText path)

/-- The options in a file. An empty file has none. -/
def load [Yaml.Reader] (path : String) : Action (List (Value × Value)) := do
  match ← readYaml path with
  | .error (.malformed _ reason) => throw (.yaml path reason)
  | .error (.scalar fault) => throw (.scalar fault)
  | .error .tooDeep => throw .tooDeep
  | .ok .null => return []
  | .ok value =>
    match validate value, value with
    | [], .map entries => return entries
    | faults, _ =>
      if faults.all OptionFault.isShowable then throw (.options path faults) else throw (.scalar .noValue)

/-- The options that apply to a path: those of the named file, if a name is given, else those of the nearest
options file, else none. -/
def resolve [Yaml.Reader] (path optionsPath : String) : Action (List (Value × Value)) := do
  if optionsPath != "" then load (Path.normalize optionsPath)
  else
    match ← find path with
    | some place => load (Path.absolute place)
    | none => return []

/-- The options that apply to a path with command-line values on top. -/
def resolveWith [Yaml.Reader] (path optionsPath : String) (aliases : List String)
    (byFullPath : Option Bool) : Action (List (Value × Value)) := do
  match override (← resolve path optionsPath) (aliases.map .text) byFullPath with
  | .ok options => return options
  | .error cause => throw (.aliases cause)

/-- The configuration of options. -/
def configure (options : List (Value × Value)) : Action Configuration :=
  match Configuration.ofEntries options with
  | .ok config => return config
  | .error cause => throw (.aliases cause)

/-- The directory that scans are logged in, if logging is on. -/
def logDirectory? (options : List (Value × Value)) : Option String :=
  match Value.lookup loggingKey options with
  | some (.map logging) =>
    match Value.lookup loggingEnabledKey logging, Value.lookup loggingDirectoryKey logging with
    | some enabled, some (.text directory) =>
      if enabled.truthy && directory != "" then some directory else none
    | _, _ => none
  | _ => none

end ImportOrder.Options
