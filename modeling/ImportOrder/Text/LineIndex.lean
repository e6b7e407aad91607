import ImportOrder.Text.Basic

/-!
# Lines of a text

A line index keeps the offset at which each line starts and finds the line of an offset by halving.
Lines are numbered from zero, and only the line feed ends one.
-/

namespace ImportOrder

/-- A text with the offsets of its line starts. -/
structure LineIndex where
  text : Text
  starts : Array Nat

namespace LineIndex

/-- The offsets just after each line feed of a text that begins at `offset`. -/
def breaksFrom (offset : Nat) : Text → List Nat
  | [] => []
  | c :: rest =>
    if c = '\n' then (offset + 1) :: breaksFrom (offset + 1) rest else breaksFrom (offset + 1) rest

/-- The index of a text; the first line starts at zero. -/
def ofText (t : Text) : LineIndex :=
  { text := t, starts := (0 :: breaksFrom 0 t).toArray }

/-- In an ascending array, the number of entries up to `bound` that are at most `n`, once the entries
before `low` are known to be at most `n` and those from `high` on to be greater. -/
def upperBound (a : Array Nat) (n : Int) (low high : Nat) (h : high ≤ a.size) : Nat :=
  if hlt : low < high then
    let middle := (low + high) / 2
    if n < a[middle] then upperBound a n low middle (by omega)
    else upperBound a n (middle + 1) high h
  else low
termination_by high - low

/-- The line that holds an offset: the last one that starts at or before it, or -1 below zero. -/
def lineOf (index : LineIndex) (offset : Int) : Int :=
  upperBound index.starts offset 0 index.starts.size (Nat.le_refl _) - 1

/-- The offset at which a line starts. A negative line counts from the last line. -/
def startOf? (index : LineIndex) (line : Int) : Option Nat :=
  if line < 0 then
    if line + index.starts.size < 0 then none
    else index.starts[(line + index.starts.size).toNat]?
  else index.starts[line.toNat]?

/-- How far an offset stands from the start of its line. -/
def columnOf (index : LineIndex) (offset : Int) : Int :=
  offset - ((index.startOf? (index.lineOf offset)).getD 0 : Nat)

/-- The text of a line without its line break and the carriage returns before it, if there is such a
line. -/
def lineText? (index : LineIndex) (line : Int) : Option Text := do
  let start ← index.startOf? line
  let stop : Int ←
    if line + 1 < index.starts.size then (index.startOf? (line + 1)).map fun next => (next : Int) - 1
    else some index.text.length
  return (index.text.slice start stop).dropEndWhile (· == '\r')

end LineIndex

end ImportOrder
