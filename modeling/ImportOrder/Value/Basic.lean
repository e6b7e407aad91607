import ImportOrder.Value.Moment

/-!
# Values of options and settings

What a YAML or JSON text stands for. A map keeps its entries in the order of their first appearance, and
any value but a collection may be a key.
-/

namespace ImportOrder

/-- The collections that may hold themselves. -/
inductive Shape where
  | list
  | map
  | pair
deriving DecidableEq, Repr

/-- A value read from YAML or JSON. -/
inductive Value where
  | null
  | bool (b : Bool)
  | int (n : Int)
  /-- A floating-point number by its bit pattern. -/
  | real (bits : UInt64)
  | text (s : String)
  | bytes (content : List UInt8)
  | date (day : Day)
  | moment (m : Moment)
  | list (items : List Value)
  | map (entries : List (Value × Value))
  | pair (first second : Value)
  /-- A set, its members in the order in which they are shown. -/
  | set (members : List Value)
  /-- A collection at a place inside itself, where it is not written out again. -/
  | inside (shape : Shape)
deriving Repr, Inhabited

namespace Value

/-- The bit patterns of the numbers that are not finite. What is no number is either written by its name, or the
outcome of reading or computing. -/
def nan : UInt64 := 0x7ff8000000000000
def namelessNan : UInt64 := 0x7ff8000000000001
def infinity : UInt64 := 0x7ff0000000000000
def negativeInfinity : UInt64 := 0xfff0000000000000

/-- The name of the value's type in messages. -/
def typeName : Value → String
  | null => "NoneType"
  | bool _ => "bool"
  | int _ => "int"
  | real _ => "float"
  | text _ => "str"
  | bytes _ => "bytes"
  | date _ => "date"
  | moment _ => "datetime"
  | list _ | inside .list => "list"
  | map _ | inside .map => "dict"
  | pair .. | inside .pair => "tuple"
  | set _ => "set"

/-- Whether the value counts as true: null, false, zero and whatever is empty do not. -/
def truthy : Value → Bool
  | null => false
  | bool b => b
  | int n => n != 0
  | real bits => bits <<< 1 != 0
  | text s => s != ""
  | bytes content => !content.isEmpty
  | date _ | moment _ | pair .. | inside _ => true
  | list items => !items.isEmpty
  | map entries => !entries.isEmpty
  | set members => !members.isEmpty

/-- The number that a value is, if it is an integer. -/
def int? : Value → Option Int
  | int n => some n
  | _ => none

/-- The set of distinct members: integers are shown by size, anything else in the order given. -/
def setOf (members : List Value) : Value :=
  if members.all fun member => member.int?.isSome then
    set (members.mergeSort fun a b => decide (a.int?.getD 0 ≤ b.int?.getD 0))
  else set members

/-- Whether the value is exactly this text. -/
def isText (s : String) : Value → Bool
  | text t => t == s
  | _ => false

/-- The value of the first entry whose key is the given text. -/
def lookup (key : String) (entries : List (Value × Value)) : Option Value :=
  (entries.find? fun entry => entry.1.isText key).map Prod.snd

/-- The entries with the value at a text key replaced, or added at the end. -/
def assign (key : String) (value : Value) : List (Value × Value) → List (Value × Value)
  | [] => [(.text key, value)]
  | entry :: rest =>
    if entry.1.isText key then (entry.1, value) :: rest else entry :: assign key value rest

end Value

end ImportOrder
