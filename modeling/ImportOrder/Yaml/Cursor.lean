import ImportOrder.Text.Basic

/-!
# A reading head

The text still to be read with the place it stands at. Columns tell indentation, so the byte order mark has
no width.
-/

namespace ImportOrder.Yaml

/-- The rest of a text and where it begins. -/
structure Cursor where
  rest : Text
  index : Nat := 0
  line : Nat := 0
  column : Nat := 0

/-- A character that ends a line. -/
def isBreak (c : Char) : Bool :=
  c == '\n' || c == '\r' || c == '\x85' || c == '\u2028' || c == '\u2029'

/-- A line break, or the end of the text. -/
def endsLine : Option Char → Bool
  | none => true
  | some c => isBreak c

/-- What ends a word: a space, a tab, a line break or the end of the text. -/
def endsWord : Option Char → Bool
  | none => true
  | some c => c == ' ' || c == '\t' || isBreak c

/-- As `endsWord`, without the tab. -/
def endsField : Option Char → Bool
  | none => true
  | some c => c == ' ' || isBreak c

namespace Cursor

/-- The character a number of places ahead. -/
def peek (cursor : Cursor) (ahead : Nat := 0) : Option Char :=
  cursor.rest[ahead]?

/-- Whether the next character is this one. -/
def sees (cursor : Cursor) (c : Char) : Bool :=
  cursor.peek == some c

/-- The cursor after one character. -/
def next (cursor : Cursor) : Cursor :=
  match cursor.rest with
  | [] => cursor
  | c :: rest =>
    let ends := c == '\n' || c == '\x85' || c == '\u2028' || c == '\u2029' ||
      (c == '\r' && rest.head? != some '\n')
    if ends then ⟨rest, cursor.index + 1, cursor.line + 1, 0⟩
    else ⟨rest, cursor.index + 1, cursor.line, if c == '\ufeff' then cursor.column else cursor.column + 1⟩

/-- The cursor after a number of characters. -/
def skip (cursor : Cursor) : Nat → Cursor
  | 0 => cursor
  | n + 1 => cursor.next.skip n

/-- The characters ahead that belong to a class. -/
def ahead (cursor : Cursor) (p : Char → Bool) : Text :=
  cursor.rest.takeWhile p

/-- The cursor after all characters of a class. -/
def skipWhile (cursor : Cursor) (p : Char → Bool) : Cursor :=
  cursor.skip (cursor.ahead p).length

/-- The line break ahead, as one line feed unless it is a Unicode separator, and the cursor after it. -/
def lineBreak? (cursor : Cursor) : Option (Char × Cursor) :=
  match cursor.rest with
  | '\r' :: '\n' :: _ => some ('\n', cursor.skip 2)
  | c :: _ =>
    if c == '\n' || c == '\r' || c == '\x85' then some ('\n', cursor.next)
    else if c == '\u2028' || c == '\u2029' then some (c, cursor.next)
    else none
  | [] => none

/-- Whether three of a character stand here as a word of their own. -/
def atTriple (cursor : Cursor) (c : Char) : Bool :=
  [c, c, c].isPrefixOf cursor.rest && endsWord (cursor.peek 3)

/-- Whether a line that separates documents begins here. -/
def atSeparator (cursor : Cursor) : Bool :=
  cursor.atTriple '-' || cursor.atTriple '.'

end Cursor

end ImportOrder.Yaml
