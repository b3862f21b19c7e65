/-
FilterQuery.Calendar.DateTime — times of the day, and dates with a time.

A time of the day is exact to a nanosecond. Its second may be 60, a leap
second, at the end of any minute; where seconds are counted, a leap
second counts as the second before it.
-/
import FilterQuery.Calendar.Date

namespace FilterQuery

namespace Calendar

/-- Whether an hour, a minute, a second and a count of nanoseconds make up
a time of the day. -/
def isTime (hour minute second nano : Nat) : Bool :=
  hour < 24 && minute < 60 && second ≤ 60 && nano < 1000000000

end Calendar

/-- A time of the day. -/
structure TimeOfDay where
  hour : Nat
  minute : Nat
  second : Nat
  nano : Nat
  valid : Calendar.isTime hour minute second nano = true
deriving DecidableEq

namespace TimeOfDay

instance : Repr TimeOfDay where
  reprPrec t _ :=
    repr t.hour ++ ":" ++ repr t.minute ++ ":" ++ repr t.second ++ "." ++ repr t.nano

/-- The time of an hour, a minute, a second and a count of nanoseconds. -/
def of? (hour minute second nano : Nat) : Option TimeOfDay :=
  if h : Calendar.isTime hour minute second nano = true then
    some ⟨hour, minute, second, nano, h⟩
  else none

/-- Whether the time is within a leap second. -/
def isLeap (t : TimeOfDay) : Bool := t.second == 60

/-- The number of seconds since midnight. -/
def seconds (t : TimeOfDay) : Nat := t.hour * 3600 + t.minute * 60 + min t.second 59

/-- The fraction of a second: nothing if there is none, else a point and
three, six or nine digits, the fewest that are exact. -/
def fraction (t : TimeOfDay) : List Char :=
  if t.nano = 0 then []
  else if t.nano % 1000000 = 0 then '.' :: paddedDigits 3 (t.nano / 1000000)
  else if t.nano % 1000 = 0 then '.' :: paddedDigits 6 (t.nano / 1000)
  else '.' :: paddedDigits 9 t.nano

/-- The characters of a time in the ISO form. -/
def chars (t : TimeOfDay) : List Char :=
  paddedDigits 2 t.hour ++ ':' :: paddedDigits 2 t.minute ++ ':' :: paddedDigits 2 t.second ++
    t.fraction

end TimeOfDay

/-- A date with a time of the day. -/
structure DateTime where
  date : Date
  time : TimeOfDay
deriving DecidableEq, Repr

namespace DateTime

/-- The number of seconds since the beginning of 1970. -/
def timestamp (dt : DateTime) : Int := dt.date.dayNumber * 86400 + dt.time.seconds

/-- The whole second of a timestamp. -/
def ofTimestamp? (t : Int) : Option DateTime := do
  let date ← Date.ofDayNumber? (t / 86400)
  let s := (t % 86400).toNat
  let time ← TimeOfDay.of? (s / 3600) (s / 60 % 60) (s % 60) 0
  return ⟨date, time⟩

/-- The date and time a whole number of minutes earlier. A leap second
stays one. -/
def earlier? (dt : DateTime) (minutes : Int) : Option DateTime := do
  let s : Int := dt.time.hour * 60 + dt.time.minute - minutes
  let date ← Date.ofDayNumber? (dt.date.dayNumber + s / 1440)
  let m := (s % 1440).toNat
  let time ← TimeOfDay.of? (m / 60) (m % 60) dt.time.second dt.time.nano
  return ⟨date, time⟩

/-- The ISO form. -/
def text (dt : DateTime) : String := String.ofList (dt.date.chars ++ 'T' :: dt.time.chars)

end DateTime

end FilterQuery
