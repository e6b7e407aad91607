import ImportOrder.Text.Basic
import ImportOrder.Value.Basic

/-!
# Readers of YAML

The program reads YAML through a reader that it is given. A text is refused by the first stage of reading that cannot
go on with it. A text that passes all stages may still hold a scalar of a type that has no such value.
-/

namespace ImportOrder.Yaml

/-- The stages of reading a text. -/
inductive Stage where
  /-- Which characters a text may hold. -/
  | characters
  /-- How characters form tokens. -/
  | tokens
  /-- How tokens form nodes. -/
  | nodes
  /-- What aliases refer to, and that there is one document. -/
  | references
  /-- What nodes stand for. -/
  | values
deriving DecidableEq

/-- Why a scalar has no value of its type. -/
inductive ScalarFault where
  /-- The text has not the form of the type, or names a number or day that there is not. -/
  | noValue
  /-- The word for a truth value is not known. -/
  | unknownWord (word : String)
  /-- A number has no text. -/
  | noText
  /-- The text of a moment has not the form of one. -/
  | noMoment
  /-- The moment is a mapping. -/
  | momentMapping
  /-- The number is too large to be worked with. -/
  | tooLarge
deriving DecidableEq

def ScalarFault.message : ScalarFault → String
  | noValue => "a scalar has no value of its type"
  | unknownWord word => word
  | noText => "a number has no text"
  | noMoment => "a timestamp has not the form of one"
  | momentMapping => "a timestamp is a mapping"
  | tooLarge => "a number is too large"

/-- Why a YAML text cannot be read. -/
inductive Error where
  /-- The text breaks the rules of YAML. -/
  | malformed (stage : Stage) (reason : String)
  /-- A scalar has a type and no value of it, such as a day that no calendar has. -/
  | scalar (fault : ScalarFault)
  /-- Too many collections stand inside each other. -/
  | tooDeep
deriving DecidableEq

/-- A reader of YAML texts: the value of a text, or why it has none. -/
class Reader where
  read : Text → Except Error Value

end ImportOrder.Yaml
