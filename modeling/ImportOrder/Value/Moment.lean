/-!
# Days and times

A day of the calendar, a time of the clock, and a moment: both together with, perhaps, the zone of the clock. Moments
with zones are the same when they are the same instant, whatever their clocks show.
-/

namespace ImportOrder

/-- A day of the calendar. -/
structure Day where
  year : Nat
  month : Nat
  day : Nat
deriving DecidableEq, Repr

namespace Day

/-- The number of days in a month. -/
def daysIn (year month : Nat) : Nat :=
  let leap := year % 4 = 0 ∧ (year % 100 ≠ 0 ∨ year % 400 = 0)
  if month = 2 then (if leap then 29 else 28)
  else if [4, 6, 9, 11].contains month then 30
  else 31

/-- Whether the calendar has the day. -/
def isValid (d : Day) : Bool :=
  decide (1 ≤ d.year ∧ 1 ≤ d.month ∧ d.month ≤ 12 ∧ 1 ≤ d.day ∧ d.day ≤ daysIn d.year d.month)

/-- The days from the start of the calendar up to and including this one. -/
def ordinal (d : Day) : Nat :=
  let years := d.year - 1
  (List.range (d.month - 1)).foldl (fun days month => days + daysIn d.year (month + 1))
    (365 * years + years / 4 - years / 100 + years / 400) + d.day

/-- The literal form of a day. -/
def literal (d : Day) : String :=
  "datetime.date(" ++ ", ".intercalate ([d.year, d.month, d.day].map toString) ++ ")"

end Day

/-- A time of the clock. -/
structure TimeOfDay where
  hour : Nat
  minute : Nat
  second : Nat
  microsecond : Nat
deriving DecidableEq, Repr

namespace TimeOfDay

/-- Whether the clock has the time. -/
def isValid (t : TimeOfDay) : Bool :=
  decide (t.hour < 24 ∧ t.minute < 60 ∧ t.second < 60)

/-- The microseconds since midnight. -/
def sinceMidnight (t : TimeOfDay) : Nat :=
  ((t.hour * 60 + t.minute) * 60 + t.second) * 1000000 + t.microsecond

end TimeOfDay

/-- A day with a time, and the minutes that the zone of the clock is ahead. -/
structure Moment where
  day : Day
  time : TimeOfDay
  zone : Option Int := none
deriving DecidableEq, Repr

namespace Moment

/-- The microseconds since the start of the calendar, on a clock that is not ahead. -/
def instant (m : Moment) : Int :=
  (m.day.ordinal * 86400000000 + m.time.sinceMidnight : Nat) - m.zone.getD 0 * 60000000

/-- Whether two moments are the same. One with a zone is never the same as one without. -/
def same (a b : Moment) : Bool :=
  a.zone.isSome == b.zone.isSome && a.instant == b.instant

/-- The zone in the literal form of a moment. -/
def zoneLiteral : Option Int → String
  | none => ""
  | some 0 => ", tzinfo=datetime.timezone.utc"
  | some ahead =>
    let days := if ahead < 0 then "days=-1, " else ""
    let seconds := (if ahead < 0 then ahead + 1440 else ahead) * 60
    ", tzinfo=datetime.timezone(datetime.timedelta(" ++ days ++ "seconds=" ++ toString seconds ++ "))"

/-- The literal form of a moment; seconds and microseconds that are zero at its end are left out. -/
def literal (m : Moment) : String :=
  let parts := [m.day.year, m.day.month, m.day.day, m.time.hour, m.time.minute] ++
    (if m.time.second = 0 ∧ m.time.microsecond = 0 then [] else [m.time.second]) ++
    (if m.time.microsecond = 0 then [] else [m.time.microsecond])
  "datetime.datetime(" ++ ", ".intercalate (parts.map toString) ++ zoneLiteral m.zone ++ ")"

end Moment

end ImportOrder
