import ImportOrder.Text.Printable
import ImportOrder.Text.Basic

/-!
# Quoted text in messages

A text is shown between single quotes, or between double quotes when it holds a single quote and no double
one. Characters without a printed form are shown by their code.
-/

namespace ImportOrder.Quoted

/-- The lower-case hexadecimal digits of a number, filled up with zeros to a width. -/
def hex (width n : Nat) : Text :=
  let digits := Nat.toDigits 16 n
  List.replicate (width - digits.length) '0' ++ digits

/-- One character as it stands between the given quotes. -/
def escape (quote c : Char) : Text :=
  if c = quote ∨ c = '\\' then ['\\', c]
  else if c = '\n' then ['\\', 'n']
  else if c = '\r' then ['\\', 'r']
  else if c = '\t' then ['\\', 't']
  else if isPrintable c then [c]
  else if c.toNat < 0x100 then '\\' :: 'x' :: hex 2 c.toNat
  else if c.toNat < 0x10000 then '\\' :: 'u' :: hex 4 c.toNat
  else '\\' :: 'U' :: hex 8 c.toNat

/-- The quote a text is shown with. -/
def quoteFor (t : Text) : Char :=
  if t.contains '\'' && !t.contains '"' then '"' else '\''

/-- A text with its quotes. -/
def encode (t : Text) : Text :=
  let quote := quoteFor t
  quote :: t.flatMap (escape quote) ++ [quote]

/-- The quoted form of a string. -/
def ofString (s : String) : String :=
  String.ofList (encode s.toList)

end ImportOrder.Quoted
