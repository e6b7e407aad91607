import ImportOrder.Text.Base64
import ImportOrder.Text.Lower
import ImportOrder.Yaml.Number
import ImportOrder.Yaml.Stamp

/-!
# What nodes stand for

A tag tells the kind of a node. Without one a plain scalar is null, a truth value, a number or a moment when it
has the form of one, and text otherwise; the forms are those of YAML 1.1.
-/

namespace ImportOrder.Yaml

/-- The kinds of nodes. -/
inductive Kind where
  | null
  | bool
  | int
  | float
  | timestamp
  | binary
  | text
  | list
  | map
  /-- A list of entries, whose order counts. -/
  | orderedMap
  /-- A list of entries, whose keys may be repeated. -/
  | pairs
  | set
  /-- The key that merges other mappings. -/
  | merge
  /-- The key of the value that a mapping stands for as a scalar. -/
  | defaultValue
  /-- A kind that has no values. -/
  | unknown
deriving DecidableEq, Inhabited

namespace Kind

/-- What the tags of YAML's own types begin with. -/
def coreTag : String := "tag:yaml.org,2002:"

/-- The names of kinds in tags. -/
def names : List (String × Kind) :=
  [("null", null), ("bool", bool), ("int", int), ("float", float), ("timestamp", timestamp),
    ("binary", binary), ("str", text), ("seq", list), ("map", map), ("omap", orderedMap),
    ("pairs", pairs), ("set", set), ("merge", merge), ("value", defaultValue)]

/-- The kind that a tag names. -/
def ofTag (tag : String) : Kind :=
  ((names.find? fun (name, _) => coreTag ++ name == tag).map Prod.snd).getD unknown

def trueWords : List String := ["yes", "true", "on"]
def falseWords : List String := ["no", "false", "off"]

/-- A word in its three spellings: small, with a capital and in capitals. -/
def spellings (word : String) : List String :=
  [word, word.capitalize, word.map Char.toUpper]

def isDigitMark (c : Char) : Bool := c.isDigit || c == '_'

/-- Digits and low lines that begin with a digit, and the text after them. -/
def splitDigits? (t : Text) : Option (Text × Text) :=
  match t with
  | c :: _ => if c.isDigit then some (t.takeWhile isDigitMark, t.dropWhile isDigitMark) else none
  | [] => none

/-- Whether the text is nothing, or an exponent with a sign. -/
def isExponent : Text → Bool
  | [] => true
  | e :: sign :: rest =>
    (e == 'e' || e == 'E') && (sign == '-' || sign == '+') && !rest.isEmpty && rest.all Char.isDigit
  | _ => false

/-- The text after one or more groups of a colon and a number below sixty. -/
def skipSixties : Nat → Text → Option Text
  | 0, _ => none
  | bound + 1, ':' :: a :: b :: rest =>
    if '0' ≤ a ∧ a ≤ '5' ∧ b.isDigit then some ((skipSixties bound rest).getD rest)
    else if a.isDigit then some ((skipSixties bound (b :: rest)).getD (b :: rest))
    else none
  | _ + 1, [':', a] => if a.isDigit then some [] else none
  | _ + 1, _ => none

/-- Whether a text has the form of a floating-point number. -/
def isFloat (t : Text) : Bool :=
  let unsigned := (Number.cutSign t).2
  if (spellings "inf").any fun name => ('.' :: name.toList) == unsigned then true
  else if [".nan", ".NaN", ".NAN"].any fun name => name.toList == t then true
  else
    match t with
    | '.' :: rest =>
      match splitDigits? rest with
      | some (_, after) => isExponent after
      | none => false
    | _ =>
      match splitDigits? unsigned with
      | none => false
      | some (_, '.' :: after) => isExponent (after.dropWhile isDigitMark)
      | some (_, after) =>
        match skipSixties after.length after with
        | some ('.' :: fraction) => fraction.all isDigitMark
        | _ => false

/-- Whether a text has the form of an integer. -/
def isInt (t : Text) : Bool :=
  match (Number.cutSign t).2 with
  | '0' :: 'b' :: digits => !digits.isEmpty && digits.all fun c => c == '0' || c == '1' || c == '_'
  | '0' :: 'x' :: digits =>
    !digits.isEmpty && digits.all fun c => (Json.hexDigit? c).isSome || c == '_'
  | ['0'] => true
  | '0' :: digits => digits.all fun c => ('0' ≤ c && c ≤ '7') || c == '_'
  | t =>
    match splitDigits? t with
    | none => false
    | some (_, []) => true
    | some (_, after) => skipSixties after.length after == some []

/-- The kind of a plain scalar, by its form. A line feed at its end does not count. -/
def ofForm (t : Text) : Kind :=
  let form := Text.dropLineFeed t
  let word := String.ofList form
  if ((trueWords ++ falseWords).flatMap spellings).contains word then bool
  else if isFloat form then float
  else if isInt form then int
  else if word = "<<" then merge
  else if t.isEmpty || ("~" :: spellings "null").contains word then null
  else if Stamp.isForm t then timestamp
  else if word = "=" then defaultValue
  else if ["!", "&", "*"].contains word then unknown
  else text

/-- The truth value that a word stands for. -/
def truth (t : Text) : Except Error Bool :=
  let word := String.ofList (Text.lower t)
  if trueWords.contains word then .ok true
  else if falseWords.contains word then .ok false
  else .error (.scalar (.unknownWord word))

/-- The value of a text of a kind. The kinds of collections have none here. -/
def scalarValue (kind : Kind) (t : Text) : Except Error Value :=
  match kind with
  | null => .ok .null
  | bool => (truth t).map .bool
  | int => (Number.integer t).map .int
  | float => (Number.real t).map .real
  | timestamp =>
    match Stamp.parse? t with
    | some stamp => stamp.toValue
    | none => .error (.scalar .noMoment)
  | binary =>
    match if t.all (·.toNat < 0x80) then Base64.decode? t else none with
    | some content => .ok (.bytes content)
    | none => .error (.malformed .values "failed to decode base64 data")
  | text => .ok (.text (String.ofList t))
  | _ => .error (.malformed .values "could not determine a constructor for the tag")

/-- Whether nodes of the kind are made of other nodes. -/
def isCollection : Kind → Bool
  | list | map | orderedMap | pairs | set => true
  | _ => false

end Kind

end ImportOrder.Yaml
