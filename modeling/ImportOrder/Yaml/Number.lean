import ImportOrder.Decimal
import ImportOrder.Json.Reader
import ImportOrder.Text.Lower
import ImportOrder.Text.Word
import ImportOrder.Yaml.Reader

/-!
# Numbers in YAML

An integer is written in base two, eight, ten or sixteen, or in base sixty with colons between its parts; a
floating-point number is a decimal or has parts in base sixty. Low lines may stand anywhere. A tag may demand a
number of any text, so what plain scalars cannot write is read as well: blanks around a number, a second sign,
digits of other scripts.
-/

namespace ImportOrder.Yaml.Number

/-- The value of a digit in the bases up to sixteen. -/
def digitValue? (c : Char) : Option Nat :=
  (decimalValue? c).or (Json.hexDigit? c)

/-- The number that digits write in a base. -/
def ofDigits? (base : Nat) (digits : Text) : Option Nat :=
  if digits.isEmpty then none
  else
    digits.foldl
      (fun n? c => do
        let d ← digitValue? c
        if d < base then return (← n?) * base + d else none)
      (some 0)

/-- The blanks that may stand around a number: all but the information separators. -/
def isMargin (c : Char) : Bool :=
  isBlank c && !decide (0x1c ≤ c.toNat ∧ c.toNat ≤ 0x1f)

/-- A text without the blanks around it. -/
def dropMargins (t : Text) : Text :=
  Text.dropEndWhile isMargin (t.dropWhile isMargin)

/-- A text after its sign, and whether that is a minus. -/
def cutSign : Text → Bool × Text
  | '-' :: rest => (true, rest)
  | '+' :: rest => (false, rest)
  | t => (false, t)

/-- The letter that may introduce digits of a base after a zero. -/
def baseLetter? : Nat → Option Char
  | 2 => some 'b'
  | 8 => some 'o'
  | 16 => some 'x'
  | _ => none

/-- The digits after the mark of a base, if it stands there. -/
def dropBaseMark (base : Nat) : Text → Text
  | '0' :: c :: rest => if baseLetter? base = some c.toLower then rest else '0' :: c :: rest
  | t => t

/-- The number of decimal digits that an integer may be written with. -/
def digitLimit : Nat := 4300

/-- The integer that a text writes in a base, with blanks around it, a sign and a mark of the base allowed. -/
def integer? (base : Nat) (t : Text) : Option Int := do
  let (negative, rest) := cutSign (dropMargins t)
  let digits := dropBaseMark base rest
  if base = 10 ∧ digitLimit < digits.length then none
  else
    let n ← ofDigits? base digits
    return if negative then -(n : Int) else n

/-- The value of parts in base sixty, most significant first. -/
def ofSixties (parts : List Int) : Int :=
  parts.foldl (fun n part => n * 60 + part) 0

/-- The integer that a text without low lines and sign writes. -/
def magnitude? : Text → Option Int
  | ['0'] => some 0
  | '0' :: 'b' :: digits => integer? 2 digits
  | '0' :: 'x' :: digits => integer? 16 digits
  | '0' :: digits => integer? 8 ('0' :: digits)
  | t =>
    if t.contains ':' then ((Text.splitOn ':' t).mapM (integer? 10)).map ofSixties else integer? 10 t

/-- Removes low lines and a sign from the text of a number, which needs some text. -/
def prepare (t : Text) : Except Error (Bool × Text) :=
  match t.filter (· != '_') with
  | [] => .error (.scalar .noText)
  | kept => .ok (cutSign kept)

/-- What a text writes, which has to be something. -/
def written {α : Type} : Option α → Except Error α
  | some value => .ok value
  | none => .error (.scalar .noValue)

/-- The integer that a text writes. -/
def integer (t : Text) : Except Error Int := do
  let (negative, rest) ← prepare t
  if rest.isEmpty then throw (.scalar .noText)
  else
    let n ← written (magnitude? rest)
    return if negative then -n else n

/-- The number after the letter of an exponent; no text is no exponent. -/
def exponent? : Text → Option Int
  | [] => some 0
  | e :: rest =>
    if e = 'e' ∨ e = 'E' then
      let (negative, digits) := cutSign rest
      (ofDigits? 10 digits).map fun n => if negative then -(n : Int) else n
    else none

/-- The unsigned decimal that a text writes: digits with a point among or beside them, and an exponent. -/
def decimal? (t : Text) : Option Decimal := do
  let isDigit (c : Char) : Bool := (decimalValue? c).isSome
  let whole := t.takeWhile isDigit
  let (fraction, rest) : Text × Text :=
    match t.dropWhile isDigit with
    | '.' :: rest => (rest.takeWhile isDigit, rest.dropWhile isDigit)
    | rest => ([], rest)
  let digits ← ofDigits? 10 (whole ++ fraction)
  return ⟨digits, (← exponent? rest) - fraction.length⟩

/-- The floating-point number that a text writes, by digits or by name, with blanks around it and a sign
allowed. -/
def real? (t : Text) : Option Float := do
  let (negative, rest) := cutSign (dropMargins t)
  let name := String.ofList (Text.lower rest)
  let x ←
    if name = "inf" ∨ name = "infinity" then some (1.0 / 0.0)
    else if name = "nan" then some (0.0 / 0.0)
    else (decimal? rest).map Decimal.nearest
  return if negative then -x else x

/-- The value of parts in base sixty, least significant first. The weight of a part is an exact power of sixty that is
rounded once, and it has to be in the range of floating-point numbers whatever the part is. -/
def sumSixties (parts : List Float) : Except Error Float := do
  let (sum, _) ← parts.foldlM
    (fun ((sum, power) : Float × Nat) part => do
      let weight := Decimal.nearest ⟨power, 0⟩
      if weight.isInf then throw (.scalar .tooLarge) else return (sum + part * weight, power * 60))
    (0.0, 1)
  return sum

/-- The unsigned floating-point number that a text without low lines writes, if not by the name of what is none. -/
def realMagnitude (t : Text) : Except Error Float := do
  let name := String.ofList (Text.lower t)
  if name = ".inf" then return 1.0 / 0.0
  else if t.contains ':' then
    let parts ← written ((Text.splitOn ':' t).mapM real?)
    sumSixties parts.reverse
  else written (real? t)

/-- The floating-point number that a text writes, as bits. -/
def real (t : Text) : Except Error UInt64 := do
  let (negative, rest) ← prepare t
  if String.ofList (Text.lower rest) = ".nan" then return Value.nan
  else
    let x ← realMagnitude rest
    let bits := (if negative then -x else x).toBits
    return if Value.infinity < bits &&& 0x7fffffffffffffff then Value.namelessNan else bits

end ImportOrder.Yaml.Number
