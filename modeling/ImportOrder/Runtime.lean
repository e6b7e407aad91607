import ImportOrder.Source.Token
import ImportOrder.Yaml.Resolve

/-!
# What the program runs on

The stack and the reader of YAML that a run is given. Both limits are those of a stack of a thousand calls below a
command; what is proved of the program holds whatever they are, and whatever the reader makes of a text.
-/

namespace ImportOrder.Runtime

scoped instance : Stack where
  room := 329

scoped instance : Yaml.Reader where
  read := Yaml.parse 488

end ImportOrder.Runtime
