import ImportOrder.Decimal
import ImportOrder.Text.Quoted
import ImportOrder.Value.Basic

/-!
# Values in messages

The literal form of a value: quoted text, `None`, `True` and `False`, numbers by their shortest digits,
lists in brackets, maps and sets in braces and pairs in parentheses. A collection inside itself is shown by its
brackets around three points.
-/

namespace ImportOrder

/-- How a decimal is laid out: positional for the exponents from `least` up to, not including, `limit`
(the exponent of its first digit), else with an exponent of at least `width` digits. -/
structure DecimalLayout where
  least : Int
  limit : Int
  width : Nat

namespace Decimal

/-- A decimal by a layout. A whole number keeps one zero after the point in positional form. -/
def layOut (style : DecimalLayout) (d : Decimal) : String :=
  let digits := Nat.toDigits 10 d.digits
  let first : Int := d.exponent + digits.length - 1
  if style.least ≤ first ∧ first < style.limit then
    if first < 0 then
      "0." ++ String.ofList (List.replicate (-first - 1).toNat '0' ++ digits)
    else
      let whole := (first + 1).toNat
      if digits.length ≤ whole then
        String.ofList (digits ++ List.replicate (whole - digits.length) '0') ++ ".0"
      else String.ofList (digits.take whole) ++ "." ++ String.ofList (digits.drop whole)
  else
    let mantissa :=
      if digits.length = 1 then String.ofList digits
      else String.ofList (digits.take 1) ++ "." ++ String.ofList (digits.drop 1)
    let power := Nat.toDigits 10 first.natAbs
    mantissa ++ "e" ++ (if first < 0 then "-" else "+") ++
      String.ofList (List.replicate (style.width - power.length) '0' ++ power)

end Decimal

/-- The marks around a collection. -/
def Shape.around : Shape → String → String
  | .list, inner => "[" ++ inner ++ "]"
  | .map, inner => "\x7b" ++ inner ++ "\x7d"
  | .pair, inner => "(" ++ inner ++ ")"

namespace Value

/-- Numbers are positional from 0.0001 up to 10^16 and have two exponent digits beyond. -/
def realLayout : DecimalLayout := ⟨-4, 16, 2⟩

/-- The text of a floating-point number. -/
def realText (bits : UInt64) : String :=
  let sign := if bits >>> 63 = 1 then "-" else ""
  let magnitude := bits &&& 0x7fffffffffffffff
  if magnitude = 0 then sign ++ "0.0"
  else if magnitude = infinity then sign ++ "inf"
  else if magnitude > infinity then "nan"
  else sign ++ (Decimal.Binary.ofBits magnitude).shortest.layOut realLayout

/-- One byte as it stands between the given quotes: ASCII characters by themselves, the rest by code. -/
def byteText (quote : Char) (b : UInt8) : Text :=
  let c := Char.ofNat b.toNat
  if c.toNat < 0x80 then Quoted.escape quote c else '\\' :: 'x' :: Quoted.hex 2 b.toNat

/-- Bytes with their quotes, introduced by a letter. -/
def bytesText (content : List UInt8) : String :=
  let quote := Quoted.quoteFor (content.map fun b => Char.ofNat b.toNat)
  String.ofList ('b' :: quote :: content.flatMap (byteText quote) ++ [quote])

/-- The integers from this one on have more decimal digits than are ever written. -/
def digitBound : Nat := Nat.pow 10 4300

mutual

/-- Whether no integer in a value has too many digits to be written. -/
def isShowable : Value → Bool
  | int n => decide (n.natAbs < digitBound)
  | list items | set items => allShowable items
  | map entries => entriesShowable entries
  | pair first second => isShowable first && isShowable second
  | _ => true

/-- Whether all values can be written. -/
def allShowable : List Value → Bool
  | [] => true
  | value :: rest => isShowable value && allShowable rest

/-- Whether all keys and values of entries can be written. -/
def entriesShowable : List (Value × Value) → Bool
  | [] => true
  | (key, value) :: rest => isShowable key && isShowable value && entriesShowable rest

end

mutual

/-- The literal form of a value. -/
def literal : Value → String
  | null => "None"
  | bool true => "True"
  | bool false => "False"
  | int n => toString n
  | real bits => realText bits
  | text s => Quoted.ofString s
  | date day => day.literal
  | moment m => m.literal
  | bytes content => bytesText content
  | list items => Shape.list.around (", ".intercalate (literals items))
  | map entries => Shape.map.around (", ".intercalate (entryLiterals entries))
  | pair first second => Shape.pair.around (literal first ++ ", " ++ literal second)
  | set [] => "set()"
  | set members => Shape.map.around (", ".intercalate (literals members))
  | inside shape => shape.around "..."

/-- The literal forms of several values. -/
def literals : List Value → List String
  | [] => []
  | value :: rest => literal value :: literals rest

/-- The entries of a map as key, colon and value. -/
def entryLiterals : List (Value × Value) → List String
  | [] => []
  | (key, value) :: rest => (literal key ++ ": " ++ literal value) :: entryLiterals rest

end

end Value

end ImportOrder
