/-!
# Text as a list of characters

Source text is read from the front, so it is kept as the list of its characters; every offset and
length counts characters. White space is that of Unicode with some controls of ASCII.
-/

namespace ImportOrder

/-- A set of code points as inclusive ranges. -/
abbrev Ranges := Array (Nat × Nat)

/-- Whether one of the ranges holds the character. -/
def Ranges.has (ranges : Ranges) (c : Char) : Bool :=
  ranges.any fun (low, high) => decide (low ≤ c.toNat) && decide (c.toNat ≤ high)

/-- White space of any kind, line breaks included: the ASCII controls from tab to carriage return, the four
information separators, and the spaces of Unicode. -/
def isBlank (c : Char) : Bool :=
  let n := c.toNat
  decide (0x09 ≤ n ∧ n ≤ 0x0d) || decide (0x1c ≤ n ∧ n ≤ 0x20) || n == 0x85 || n == 0xa0 ||
    n == 0x1680 || decide (0x2000 ≤ n ∧ n ≤ 0x200a) || n == 0x2028 || n == 0x2029 || n == 0x202f ||
    n == 0x205f || n == 0x3000

/-- The blanks that stay on a line: space and tab. -/
def isInlineBlank (c : Char) : Bool :=
  c == ' ' || c == '\t'

/-- A text, front first. -/
abbrev Text := List Char

namespace Text

/-- The place an index names in a text of `length` characters: a negative index counts from the end,
and an index beyond either end is moved to that end. -/
def place (length : Nat) (index : Int) : Nat :=
  if index < 0 then (index + length).toNat else min index.toNat length

/-- The characters from one index up to another, both read as by `place`. -/
def slice (t : Text) (start stop : Int) : Text :=
  (t.take (place t.length stop)).drop (place t.length start)

/-- The text up to an index. -/
def upTo (t : Text) (stop : Int) : Text :=
  t.take (place t.length stop)

/-- The text from an index on. -/
def onward (t : Text) (start : Int) : Text :=
  t.drop (place t.length start)

/-- The characters of a text before one of its tails. -/
def before (t tail : Text) : Text :=
  t.take (t.length - tail.length)

@[simp]
theorem before_append (front tail : Text) : before (front ++ tail) tail = front := by
  simp [before]

/-- Drops the characters in a class from the end. -/
def dropEndWhile (p : Char → Bool) (t : Text) : Text :=
  (t.reverse.dropWhile p).reverse

/-- Drops the blanks at the end. -/
def stripEnd (t : Text) : Text :=
  t.dropEndWhile isBlank

/-- Drops the blanks at both ends. -/
def strip (t : Text) : Text :=
  stripEnd (t.dropWhile isBlank)

/-- Drops the line feed at the end, if there is one. -/
def dropLineFeed (t : Text) : Text :=
  if t.getLast? = some '\n' then t.dropLast else t

/-- Whether `part` occurs in the text without a break. -/
def hasInfix (part : Text) : Text → Bool
  | [] => part.isEmpty
  | c :: rest => part.isPrefixOf (c :: rest) || hasInfix part rest

/-- The maximal pieces of the text between occurrences of a character; never empty. -/
def splitOn (sep : Char) : Text → List Text
  | [] => [[]]
  | c :: rest =>
    if c = sep then [] :: splitOn sep rest
    else
      match splitOn sep rest with
      | [] => [[c]]
      | first :: others => (c :: first) :: others

/-- The texts one after another with a separator between each two. -/
def joinWith (sep : Text) : List Text → Text
  | [] => []
  | [t] => t
  | t :: u :: rest => t ++ sep ++ joinWith sep (u :: rest)

end Text

/-- Replaces the characters from `start` up to `stop`. -/
structure Edit where
  start : Int
  stop : Int
  replacement : Text
deriving DecidableEq

/-- The text with the edit made. -/
def Edit.apply (edit : Edit) (source : Text) : Text :=
  source.upTo edit.start ++ edit.replacement ++ source.onward edit.stop

end ImportOrder
