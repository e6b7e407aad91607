import ImportOrder.Text.Basic

/-!
# Line breaks in files

Reading a file makes every line break a line feed. Counting lines knows more breaks than that: the vertical
tab, the form feed, the information separators and the separators of Unicode.
-/

namespace ImportOrder.Text

/-- Turns a carriage return, alone or before a line feed, into a line feed. -/
def unifyNewlines : Text → Text
  | [] => []
  | '\r' :: '\n' :: rest => '\n' :: unifyNewlines rest
  | '\r' :: rest => '\n' :: unifyNewlines rest
  | c :: rest => c :: unifyNewlines rest

/-- A character that ends a line when lines are counted. -/
def isLineEnd (c : Char) : Bool :=
  let n := c.toNat
  decide (0x0a ≤ n ∧ n ≤ 0x0d) || decide (0x1c ≤ n ∧ n ≤ 0x1e) || n == 0x85 || n == 0x2028 ||
    n == 0x2029

/-- The number of lines; what follows the last line break counts when it is not empty. `begun` tells that
a line has been begun. -/
def countLines (begun : Bool) : Text → Nat
  | [] => if begun then 1 else 0
  | '\r' :: '\n' :: rest => 1 + countLines false rest
  | c :: rest => if isLineEnd c then 1 + countLines false rest else countLines true rest

end ImportOrder.Text
