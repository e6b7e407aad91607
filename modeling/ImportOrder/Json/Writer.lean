import ImportOrder.Text.Quoted
import ImportOrder.Value.Literal

/-!
# Writing JSON

ASCII only: every other character is written by its UTF-16 units. A value is written either on one line
without blanks or indented, one item a line. Values that JSON has no form for are written by their literal form
as strings, pairs and sets as lists.
-/

namespace ImportOrder.Json

/-- How the parts of a value are set apart. -/
inductive Style where
  /-- All on one line, without blanks. -/
  | compact
  /-- One item a line, indented by the given width per level. -/
  | indented (width : Nat)
deriving DecidableEq

/-- One UTF-16 unit by its code. -/
def unitEscape (n : Nat) : Text :=
  '\\' :: 'u' :: Quoted.hex 4 n

/-- One character inside a JSON string. -/
def escape (c : Char) : Text :=
  if c = '"' ∨ c = '\\' then ['\\', c]
  else if c = '\n' then ['\\', 'n']
  else if c = '\r' then ['\\', 'r']
  else if c = '\t' then ['\\', 't']
  else if c = '\x08' then ['\\', 'b']
  else if c = '\x0c' then ['\\', 'f']
  else if 0x20 ≤ c.toNat ∧ c.toNat < 0x7f then [c]
  else if c.toNat < 0x10000 then unitEscape c.toNat
  else
    let n := c.toNat - 0x10000
    unitEscape (0xd800 + n / 0x400) ++ unitEscape (0xdc00 + n % 0x400)

/-- A string with its quotes. -/
def quoted (s : String) : Text :=
  '"' :: s.toList.flatMap escape ++ ['"']

/-- The text of a number, which JSON spells as messages do. -/
def numberText (bits : UInt64) : Text :=
  let magnitude := bits &&& 0x7fffffffffffffff
  if magnitude = Value.infinity then
    (if bits >>> 63 = 1 then "-Infinity" else "Infinity").toList
  else if magnitude > Value.infinity then "NaN".toList
  else (Value.realText bits).toList

/-- The string that stands for a key. -/
def keyText : Value → String
  | .text s => s
  | .null => "null"
  | .bool true => "true"
  | .bool false => "false"
  | .real bits => String.ofList (numberText bits)
  | value => value.literal

/-- A line break and the indentation of a level. -/
def lineBreak (width level : Nat) : Text :=
  '\n' :: List.replicate (width * level) ' '

/-- Items between brackets; `level` is that of the brackets. -/
def bracket (style : Style) (level : Nat) (opening closing : Char) (items : List Text) : Text :=
  match style, items with
  | _, [] => [opening, closing]
  | .compact, items => opening :: Text.joinWith [','] items ++ [closing]
  | .indented width, items =>
    opening :: lineBreak width (level + 1) ++
      Text.joinWith (',' :: lineBreak width (level + 1)) items ++ lineBreak width level ++ [closing]

/-- What stands between a key and its value. -/
def Style.colon : Style → Text
  | compact => [':']
  | indented _ => [':', ' ']

mutual

/-- The JSON text of a value that stands `level` brackets deep. -/
def write (style : Style) (level : Nat) : Value → Text
  | .null => "null".toList
  | .bool true => "true".toList
  | .bool false => "false".toList
  | .int n => (toString n).toList
  | .real bits => numberText bits
  | .text s => quoted s
  | .bytes content => quoted (Value.bytesText content)
  | .date day => quoted day.literal
  | .moment m => quoted m.literal
  | .inside shape => quoted (shape.around "...")
  | .list items => bracket style level '[' ']' (writeItems style (level + 1) items)
  | .map entries => bracket style level '\x7b' '\x7d' (writeEntries style (level + 1) entries)
  | .pair first second =>
    bracket style level '[' ']' [write style (level + 1) first, write style (level + 1) second]
  | .set members => bracket style level '[' ']' (writeItems style (level + 1) members)

/-- The texts of the items of a list. -/
def writeItems (style : Style) (level : Nat) : List Value → List Text
  | [] => []
  | value :: rest => write style level value :: writeItems style level rest

/-- The texts of the entries of a map. -/
def writeEntries (style : Style) (level : Nat) : List (Value × Value) → List Text
  | [] => []
  | (key, value) :: rest =>
    (quoted (keyText key) ++ style.colon ++ write style level value) :: writeEntries style level rest

end

/-- The JSON text of a value. -/
def render (style : Style) (value : Value) : String :=
  String.ofList (write style 0 value)

end ImportOrder.Json
