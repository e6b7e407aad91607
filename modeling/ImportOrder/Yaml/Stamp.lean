import ImportOrder.Json.Reader
import ImportOrder.Yaml.Reader

/-!
# How YAML writes days and times

A day of the calendar, perhaps with a time and the zone of its clock.
-/

namespace ImportOrder.Yaml

/-- One or two digits, and the text after them. -/
def shortNumber? : Text → Option (Nat × Text)
  | a :: b :: rest =>
    if a.isDigit && b.isDigit then some (Json.natOf [a, b], rest)
    else if a.isDigit then some (Json.natOf [a], b :: rest)
    else none
  | [a] => if a.isDigit then some (Json.natOf [a], []) else none
  | [] => none

/-- Exactly two digits, and the text after them. -/
def twoDigits? : Text → Option (Nat × Text)
  | a :: b :: rest => if a.isDigit && b.isDigit then some (Json.natOf [a, b], rest) else none
  | _ => none

/-- The text after a character. -/
def after? (c : Char) : Text → Option Text
  | d :: rest => if c = d then some rest else none
  | [] => none

/-- A day with, perhaps, a time and the minutes that its zone is ahead. -/
structure Stamp where
  day : Day
  time : Option TimeOfDay := none
  zone : Option Int := none

namespace Stamp

/-- The zone of a time: nothing, a letter Z or hours and minutes with a sign. -/
def readZone (t : Text) : Option (Option Int) :=
  match t.dropWhile isInlineBlank with
  | [] => if t.isEmpty then some none else none
  | ['Z'] => some (some 0)
  | sign :: rest =>
    if sign == '-' || sign == '+' then do
      let (hours, rest) ← shortNumber? rest
      let minutes ←
        match rest with
        | [] => some 0
        | ':' :: rest =>
          match twoDigits? rest with
          | some (minutes, []) => some minutes
          | _ => none
        | _ => none
      let ahead : Int := hours * 60 + minutes
      some (some (if sign == '-' then -ahead else ahead))
    else none

/-- The fraction of a second in microseconds, by its first six digits. -/
def microseconds (digits : Text) : Nat :=
  let kept := digits.take 6
  Json.natOf (kept ++ List.replicate (6 - kept.length) '0')

/-- The text after what stands between a day and a time: a letter T, or blanks. -/
def dropDivider? : Text → Option Text
  | [] => none
  | c :: rest =>
    if c == 'T' || c == 't' then some rest
    else if isInlineBlank c then some (rest.dropWhile isInlineBlank)
    else none

/-- A time of day and the text after it. -/
def readTime (t : Text) : Option (TimeOfDay × Text) := do
  let (hour, rest) ← shortNumber? t
  let (minute, rest) ← twoDigits? (← after? ':' rest)
  let (second, rest) ← twoDigits? (← after? ':' rest)
  let (fraction, rest) : Text × Text :=
    match rest with
    | '.' :: rest => (rest.takeWhile Char.isDigit, rest.dropWhile Char.isDigit)
    | _ => ([], rest)
  return (⟨hour, minute, second, microseconds fraction⟩, rest)

/-- The stamp that a text writes; a line feed may follow. -/
def parse? (t : Text) : Option Stamp := do
  let t := Text.dropLineFeed t
  let year := t.take 4
  if year.length = 4 ∧ year.all Char.isDigit then
    let (month, rest) ← shortNumber? (← after? '-' (t.drop 4))
    let (day, rest) ← shortNumber? (← after? '-' rest)
    let day : Day := { year := Json.natOf year, month, day }
    if rest.isEmpty then return { day }
    else
      let (time, rest) ← readTime (← dropDivider? rest)
      return { day, time := some time, zone := ← readZone rest }
  else none

/-- Whether a text has the form of a stamp: one without a time has two digits for month and day. -/
def isForm (t : Text) : Bool :=
  match parse? t with
  | some s => s.time.isSome || (Text.dropLineFeed t).length == 10
  | none => false

/-- Whether the calendar and the clock have what is written, and a zone of its distance can be. -/
def isValid (s : Stamp) : Bool :=
  s.day.isValid && s.time.all TimeOfDay.isValid && s.zone.all fun ahead => decide (ahead.natAbs < 1440)

/-- The value of a stamp, if there is one. -/
def toValue (s : Stamp) : Except Error Value :=
  if s.isValid then
    match s.time with
    | none => .ok (.date s.day)
    | some time => .ok (.moment ⟨s.day, time, s.zone⟩)
  else .error (.scalar .noValue)

end Stamp

end ImportOrder.Yaml
