import ImportOrder.Decimal
import ImportOrder.Text.Basic
import ImportOrder.Value.Basic

/-!
# Reading JSON

Objects keep the order of their keys; of entries with one key the last gives the value and the first the
place. The reader recurses on a bound that the length of the text supplies.
-/

namespace ImportOrder.Json

/-- The blanks of JSON. -/
def skipBlanks (t : Text) : Text :=
  t.dropWhile fun c => c == ' ' || c == '\n' || c == '\t' || c == '\r'

/-- The value of a hexadecimal digit. -/
def hexDigit? (c : Char) : Option Nat :=
  if '0' ≤ c ∧ c ≤ '9' then some (c.toNat - '0'.toNat)
  else if 'a' ≤ c ∧ c ≤ 'f' then some (c.toNat - 'a'.toNat + 10)
  else if 'A' ≤ c ∧ c ≤ 'F' then some (c.toNat - 'A'.toNat + 10)
  else none

/-- Four hexadecimal digits and the text after them. -/
def readUnit : Text → Option (Nat × Text)
  | a :: b :: c :: d :: rest => do
    let a ← hexDigit? a
    let b ← hexDigit? b
    let c ← hexDigit? c
    let d ← hexDigit? d
    return (((a * 16 + b) * 16 + c) * 16 + d, rest)
  | _ => none

/-- The character a letter stands for after a backslash. -/
def escaped? : Char → Option Char
  | '"' => some '"'
  | '\\' => some '\\'
  | '/' => some '/'
  | 'b' => some '\x08'
  | 'f' => some '\x0c'
  | 'n' => some '\n'
  | 'r' => some '\r'
  | 't' => some '\t'
  | _ => none

/-- A character written by its UTF-16 units, from after the first backslash and `u`. -/
def readCode (t : Text) : Option (Char × Text) := do
  let (high, rest) ← readUnit t
  if 0xd800 ≤ high ∧ high < 0xdc00 then
    match rest with
    | '\\' :: 'u' :: rest =>
      let (low, rest) ← readUnit rest
      if 0xdc00 ≤ low ∧ low < 0xe000 then
        some (Char.ofNat (0x10000 + (high - 0xd800) * 0x400 + (low - 0xdc00)), rest)
      else none
    | _ => none
  else some (Char.ofNat high, rest)

/-- The content of a string, from after its opening quote, in reverse before `done`. -/
def readChars (bound : Nat) (done : Text) (t : Text) : Option (Text × Text) :=
  match bound, t with
  | 0, _ => none
  | _, [] => none
  | _, '"' :: rest => some (done.reverse, rest)
  | bound + 1, '\\' :: 'u' :: rest => do
    let (c, rest) ← readCode rest
    readChars bound (c :: done) rest
  | bound + 1, '\\' :: c :: rest => do
    let c ← escaped? c
    readChars bound (c :: done) rest
  | bound + 1, c :: rest => readChars bound (c :: done) rest

/-- The value of a text of decimal digits. -/
def natOf (digits : Text) : Nat :=
  digits.foldl (fun n c => n * 10 + (c.toNat - '0'.toNat)) 0

/-- A number without its sign: whole part, digits after the point, exponent. -/
structure Magnitude where
  whole : Text
  fraction : Option Text
  exponent : Option Int

/-- The sign that may stand before the digits of an exponent, and what follows it. -/
def readSign : Text → Int × Text
  | '-' :: after => (-1, after)
  | '+' :: after => (1, after)
  | after => (1, after)

/-- The exponent of a number, if one follows. -/
def readExponent (t : Text) : Option (Option Int × Text) :=
  match t with
  | [] => some (none, t)
  | e :: after =>
    if e = 'e' ∨ e = 'E' then
      let (sign, after) := readSign after
      let digits := after.takeWhile Char.isDigit
      if digits.isEmpty then none
      else some (some (sign * natOf digits), after.dropWhile Char.isDigit)
    else some (none, t)

/-- The digits behind a point, if there are any, and what follows them. -/
def readFraction (t : Text) : Option Text × Text :=
  match t with
  | '.' :: d :: after =>
    if d.isDigit then (some ((d :: after).takeWhile Char.isDigit), (d :: after).dropWhile Char.isDigit) else (none, t)
  | _ => (none, t)

/-- Reads a number without its sign. -/
def readMagnitude (t : Text) : Option (Magnitude × Text) := do
  let whole := t.takeWhile Char.isDigit
  let rest := t.dropWhile Char.isDigit
  if whole.isEmpty then none
  else
    let (fraction, rest) := readFraction rest
    let (exponent, rest) ← readExponent rest
    return (⟨whole, fraction, exponent⟩, rest)

/-- The number with a sign: an integer unless a point or an exponent was written. -/
def Magnitude.toValue (negative : Bool) (m : Magnitude) : Value :=
  match m.fraction, m.exponent with
  | none, none =>
    let n : Int := natOf m.whole
    .int (if negative then -n else n)
  | fraction, exponent =>
    let after := fraction.getD []
    let x := Decimal.nearest ⟨natOf (m.whole ++ after), exponent.getD 0 - after.length⟩
    .real (if negative then -x else x).toBits

/-- Reads a number. -/
def readNumber (t : Text) : Option (Value × Text) :=
  match t with
  | '-' :: rest => (readMagnitude rest).map fun (m, rest) => (m.toValue true, rest)
  | _ => (readMagnitude t).map fun (m, rest) => (m.toValue false, rest)

/-- The values that have names; those of numbers that no digits can write are among them. -/
def names : List (String × Value) :=
  [("null", .null), ("true", .bool true), ("false", .bool false), ("NaN", .real Value.nan),
    ("Infinity", .real Value.infinity), ("-Infinity", .real Value.negativeInfinity)]

/-- Reads one of the names. -/
def readName (t : Text) : Option (Value × Text) :=
  (names.find? fun (name, _) => name.toList.isPrefixOf t).map fun (name, value) =>
    (value, t.drop name.length)

/-- Reads what is neither a string nor a collection. -/
def readScalar (t : Text) : Option (Value × Text) :=
  (readNumber t).or (readName t)

mutual

/-- Reads a value. -/
def readValue (bound : Nat) (t : Text) : Option (Value × Text) :=
  match bound with
  | 0 => none
  | bound + 1 =>
    match skipBlanks t with
    | '"' :: rest =>
      (readChars (rest.length + 1) [] rest).map fun (s, rest) => (.text (String.ofList s), rest)
    | '[' :: rest =>
      match skipBlanks rest with
      | ']' :: rest => some (.list [], rest)
      | _ => (readItems bound rest).map fun (items, rest) => (.list items, rest)
    | '\x7b' :: rest =>
      match skipBlanks rest with
      | '\x7d' :: rest => some (.map [], rest)
      | _ => (readEntries bound [] rest).map fun (entries, rest) => (.map entries, rest)
    | rest => readScalar rest

/-- Reads the items of a list up to its closing bracket; there is at least one. -/
def readItems (bound : Nat) (t : Text) : Option (List Value × Text) :=
  match bound with
  | 0 => none
  | bound + 1 =>
    match readValue bound t with
    | none => none
    | some (value, rest) =>
      match skipBlanks rest with
      | ',' :: rest => (readItems bound rest).map fun (items, rest) => (value :: items, rest)
      | ']' :: rest => some ([value], rest)
      | _ => none

/-- Reads the entries of an object up to its closing brace, after those already read. -/
def readEntries (bound : Nat) (done : List (Value × Value)) (t : Text) :
    Option (List (Value × Value) × Text) :=
  match bound with
  | 0 => none
  | bound + 1 =>
    match skipBlanks t with
    | '"' :: rest =>
      match readChars (rest.length + 1) [] rest with
      | none => none
      | some (key, rest) =>
        match skipBlanks rest with
        | ':' :: rest =>
          match readValue bound rest with
          | none => none
          | some (value, rest) =>
            let done := Value.assign (String.ofList key) value done
            match skipBlanks rest with
            | ',' :: rest => readEntries bound done rest
            | '\x7d' :: rest => some (done, rest)
            | _ => none
        | _ => none
    | _ => none

end

/-- The value of a JSON text, with nothing but blanks around it. -/
def parse? (s : String) : Option Value :=
  match readValue (2 * s.length + 2) s.toList with
  | some (value, rest) => if (skipBlanks rest).isEmpty then some value else none
  | none => none

end ImportOrder.Json
