import ImportOrder.Group
import ImportOrder.Value.Basic

/-!
# From options to a configuration

Options are a map as read from a file or given by a caller. Command-line values are layered on top of them,
and the result is turned into a configuration.
-/

namespace ImportOrder

/-- A value that should have been a sequence and holds no items. -/
structure NotIterable where
  value : Value

/-- The items of a value: of a collection its members, of a text its characters, of a map its keys, of bytes
their numbers. -/
def Value.items : Value → Except NotIterable (List Value)
  | .list items => .ok items
  | .pair first second => .ok [first, second]
  | .set members => .ok members
  | .bytes content => .ok (content.map fun b => .int b.toNat)
  | .text s => .ok (s.toList.map fun c => .text (String.singleton c))
  | .map entries => .ok (entries.map Prod.fst)
  | value => .error ⟨value⟩

namespace Options

def aliasPrefixKey : String := "alias-prefix"
def aliasesKey : String := "aliases"
def byFullPathKey : String := "alphabetical-by-full-path"
def loggingKey : String := "logging"

/-- The keys that options may have. -/
def knownKeys : List String := [aliasPrefixKey, aliasesKey, byFullPathKey, loggingKey]

def loggingEnabledKey : String := "enabled"
def loggingDirectoryKey : String := "directory"

/-- The keys that the logging options may have. -/
def loggingKeys : List String := [loggingEnabledKey, loggingDirectoryKey]

/-- The options with command-line aliases appended to theirs and the command-line sorting mode set. -/
def override (options : List (Value × Value)) (aliases : List Value) (byFullPath : Option Bool) :
    Except NotIterable (List (Value × Value)) := do
  let options ←
    if aliases.isEmpty then pure options
    else do
      let present ←
        match Value.lookup aliasesKey options with
        | some value => value.items
        | none => pure []
      pure (Value.assign aliasesKey (.list (present ++ aliases)) options)
  match byFullPath with
  | some b => return Value.assign byFullPathKey (.bool b) options
  | none => return options

/-- The text of a value that is a text with at least one character. -/
def aliasText? : Value → Option Text
  | .text s => if s = "" then none else some s.toList
  | _ => none

/-- The aliases among the values, without those that came before. -/
def distinct : List Text → List Text
  | [] => []
  | t :: rest => t :: (distinct rest).filter (· != t)

/-- The aliases named by options: the single one, then those of the list. A text in place of the list
counts as one alias. -/
def rawAliases (options : List (Value × Value)) : Except NotIterable (List Value) := do
  let single :=
    match Value.lookup aliasPrefixKey options with
    | some value => if value.truthy then [value] else []
    | none => []
  let several ←
    match Value.lookup aliasesKey options with
    | some (.text s) => pure (if s = "" then [] else [.text s])
    | some value => if value.truthy then value.items else pure []
    | none => pure []
  return single ++ several

end Options

/-- The configuration that a map of options stands for. -/
def Configuration.ofEntries (options : List (Value × Value)) : Except NotIterable Configuration := do
  let raw ← Options.rawAliases options
  return {
    aliases := Options.distinct (raw.filterMap Options.aliasText?)
    byFullPath := ((Value.lookup Options.byFullPathKey options).getD (.bool false)).truthy }

/-- The configuration that raw options stand for. Of a list only the first member counts, and anything
but a map stands for the defaults. -/
def Configuration.ofValue (options : Value) : Except NotIterable Configuration :=
  match options with
  | .map entries => ofEntries entries
  | .list (.map entries :: _) => ofEntries entries
  | _ => .ok {}

end ImportOrder
