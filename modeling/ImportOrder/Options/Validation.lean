import ImportOrder.Options.Configuration
import ImportOrder.Value.Literal

/-!
# Validating options

Every fault in an options map is found, and each has one message.
-/

namespace ImportOrder

/-- What can be wrong with options. -/
inductive OptionFault where
  | notMap (value : Value)
  | unknownKey (key : Value)
  | aliasPrefixType (value : Value)
  | aliasesType (value : Value)
  | aliasEntry (value : Value)
  | byFullPathType (value : Value)
  | loggingType (value : Value)
  | unknownLoggingKey (key : Value)
  | loggingEnabledType (value : Value)
  | loggingDirectory (value : Value)

def OptionFault.message : OptionFault → String
  | notMap value => "Options must be a mapping, got " ++ value.typeName
  | unknownKey key => "Unknown option: " ++ key.literal
  | aliasPrefixType value => "'alias-prefix' must be a string, got " ++ value.typeName
  | aliasesType value => "'aliases' must be a list, got " ++ value.typeName
  | aliasEntry value => "'aliases' entries must be non-empty strings, got " ++ value.literal
  | byFullPathType value => "'alphabetical-by-full-path' must be a boolean, got " ++ value.typeName
  | loggingType value => "'logging' must be a mapping, got " ++ value.typeName
  | unknownLoggingKey key => "Unknown logging option: " ++ key.literal
  | loggingEnabledType value => "'logging.enabled' must be a boolean, got " ++ value.typeName
  | loggingDirectory value =>
    "'logging.directory' must be a non-empty string, got " ++ value.literal

/-- Whether the message of a fault can be written: a value that it shows may hold too long a number. -/
def OptionFault.isShowable : OptionFault → Bool
  | unknownKey value | aliasEntry value | unknownLoggingKey value | loggingDirectory value => value.isShowable
  | _ => true

namespace Options

/-- Whether a key is one of the known texts. -/
def isKnown (known : List String) (key : Value) : Bool :=
  known.any fun name => key.isText name

/-- The faults of the value at a key; a missing value and null have none. -/
def faultsAt (key : String) (entries : List (Value × Value)) (check : Value → List OptionFault) :
    List OptionFault :=
  match Value.lookup key entries with
  | none | some .null => []
  | some value => check value

def aliasPrefixFaults : Value → List OptionFault
  | .text _ => []
  | value => [.aliasPrefixType value]

def aliasesFaults : Value → List OptionFault
  | .list items => (items.filter fun item => (aliasText? item).isNone).map .aliasEntry
  | value => [.aliasesType value]

def byFullPathFaults : Value → List OptionFault
  | .bool _ => []
  | value => [.byFullPathType value]

def loggingEnabledFaults : Value → List OptionFault
  | .bool _ => []
  | value => [.loggingEnabledType value]

def loggingDirectoryFaults (value : Value) : List OptionFault :=
  if (aliasText? value).isNone then [.loggingDirectory value] else []

def loggingFaults : Value → List OptionFault
  | .map entries =>
    ((entries.map Prod.fst).filter (!isKnown loggingKeys ·)).map .unknownLoggingKey ++
      faultsAt loggingEnabledKey entries loggingEnabledFaults ++
      faultsAt loggingDirectoryKey entries loggingDirectoryFaults
  | value => [.loggingType value]

/-- The faults of an options map. -/
def entryFaults (entries : List (Value × Value)) : List OptionFault :=
  ((entries.map Prod.fst).filter (!isKnown knownKeys ·)).map .unknownKey ++
    faultsAt aliasPrefixKey entries aliasPrefixFaults ++
    faultsAt aliasesKey entries aliasesFaults ++
    faultsAt byFullPathKey entries byFullPathFaults ++
    faultsAt loggingKey entries loggingFaults

/-- The faults of options; only a map can be without. -/
def validate : Value → List OptionFault
  | .map entries => entryFaults entries
  | value => [.notMap value]

end Options

end ImportOrder
