/-
FilterQuery.Calendar.Date — dates of the proleptic Gregorian calendar.

A date is a year, a month and a day that exist; that they do is part of
the type. Years run from -262143 to 262142, year 0 being the year before
year 1. Everything else about a date follows from counting days: the day
number counts them from the first of January 1970, the ordinal within the
year, and weeks are found from day numbers.

Weekdays are numbered from 0 for Monday to 6 for Sunday.
-/
import FilterQuery.Text.Character

namespace FilterQuery

namespace Calendar

/-- Whether a year has 366 days. -/
def isLeap (year : Int) : Bool :=
  year % 4 == 0 && (year % 100 != 0 || year % 400 == 0)

/-- The lengths of the months of a year. -/
def monthLengths (year : Int) : List Nat :=
  [31, if isLeap year then 29 else 28, 31, 30, 31, 30, 31, 31, 30, 31, 30, 31]

/-- The number of days in a month, or 0 if there is no such month. -/
def daysInMonth (year : Int) (month : Nat) : Nat :=
  match month with
  | 0 => 0
  | m + 1 => (monthLengths year).getD m 0

/-- The number of days in a year. -/
def daysInYear (year : Int) : Nat := if isLeap year then 366 else 365

/-- The day number of the first day of a year. -/
def firstDay (year : Int) : Int :=
  let y := year - 1
  365 * y + y / 4 - y / 100 + y / 400 - 719162

/-- The weekday of a day number; day 0 was a Thursday. -/
def weekdayOf (dayNumber : Int) : Nat := ((dayNumber + 3) % 7).toNat

/-- The year of a day number. The guess from the mean length of a year is
off by one at most. -/
def yearOf (dayNumber : Int) : Int :=
  let guess := (dayNumber + 719162) * 400 / 146097 + 1
  if dayNumber < firstDay guess then guess - 1
  else if firstDay (guess + 1) ≤ dayNumber then guess + 1
  else guess

/-- The day number of the Monday of the first week of an ISO year, the week
in which the fourth of January lies. -/
def isoYearStart (year : Int) : Int :=
  let fourth := firstDay year + 3
  fourth - weekdayOf fourth

/-- How many days from the weekday `start` to the weekday `day`, going
forward. -/
def daysSince (day start : Nat) : Nat := (day + 7 - start) % 7

/-- The month and day of an ordinal, given the lengths of the months from
`month` on. -/
def monthAndDay (month ordinal : Nat) : List Nat → Nat × Nat
  | [] => (month, ordinal)
  | n :: ns => if ordinal ≤ n then (month, ordinal) else monthAndDay (month + 1) (ordinal - n) ns

/-- The first year. -/
def minYear : Int := -262143

/-- The last year. -/
def maxYear : Int := 262142

/-- Whether a year, a month and a day make up a date. -/
def isDate (year : Int) (month day : Nat) : Bool :=
  minYear ≤ year && year ≤ maxYear && 1 ≤ day && day ≤ daysInMonth year month

end Calendar

open Calendar

/-- A date that exists. -/
structure Date where
  year : Int
  month : Nat
  day : Nat
  valid : isDate year month day = true
deriving DecidableEq

namespace Date

instance : Repr Date where
  reprPrec d _ := repr d.year ++ "-" ++ repr d.month ++ "-" ++ repr d.day

/-- The date of a year, a month and a day. -/
def of? (year : Int) (month day : Nat) : Option Date :=
  if h : isDate year month day = true then some ⟨year, month, day, h⟩ else none

/-- The place of the date in its year, from 1 on. -/
def ordinal (d : Date) : Nat :=
  ((monthLengths d.year).take (d.month - 1)).foldl (· + ·) 0 + d.day

/-- The number of days since the first of January 1970. -/
def dayNumber (d : Date) : Int := firstDay d.year + d.ordinal - 1

/-- The weekday. -/
def weekday (d : Date) : Nat := weekdayOf d.dayNumber

/-- The quarter of the year, from 1 on. -/
def quarter (d : Date) : Nat := (d.month - 1) / 3 + 1

/-- The ISO year, whose weeks are whole. -/
def isoYear (d : Date) : Int :=
  if isoYearStart (d.year + 1) ≤ d.dayNumber then d.year + 1
  else if isoYearStart d.year ≤ d.dayNumber then d.year
  else d.year - 1

/-- The week of the ISO year, from 1 on. -/
def isoWeek (d : Date) : Nat := ((d.dayNumber - isoYearStart d.isoYear) / 7 + 1).toNat

/-- The number of weeks begun since the first of January where weeks begin
on the weekday `start`; days before the first such weekday are in week 0. -/
def weekFrom (d : Date) (start : Nat) : Nat :=
  (d.ordinal + 6 - daysSince d.weekday start) / 7

/-- The date of an ordinal in a year. -/
def ofOrdinal? (year : Int) (ordinal : Nat) : Option Date :=
  if 1 ≤ ordinal ∧ ordinal ≤ daysInYear year then
    let (month, day) := monthAndDay 1 ordinal (monthLengths year)
    of? year month day
  else none

/-- The date of a day number. -/
def ofDayNumber? (n : Int) : Option Date :=
  let year := yearOf n
  ofOrdinal? year (n - firstDay year + 1).toNat

/-- The date of a weekday in a week of an ISO year. -/
def ofIsoWeek? (isoYear : Int) (week weekday : Nat) : Option Date :=
  let monday := isoYearStart isoYear + 7 * ((week : Int) - 1)
  if 1 ≤ week ∧ monday < isoYearStart (isoYear + 1) then ofDayNumber? (monday + weekday)
  else none

/-- The date of a weekday in a week of a year, where weeks begin on the
weekday `start` and week 1 holds the first such weekday of the year. -/
def ofWeek? (year : Int) (week weekday start : Nat) : Option Date :=
  let firstStart : Int := 1 + daysSince start (weekdayOf (firstDay year))
  let ordinal := firstStart + ((week : Int) - 1) * 7 + daysSince weekday start
  if 1 ≤ ordinal then ofOrdinal? year ordinal.toNat else none

/-- The digits of a year: four of them from year 0 to year 9999, elsewhere a
sign and at least four. -/
def yearText (year : Int) : List Char :=
  if 0 ≤ year ∧ year ≤ 9999 then paddedDigits 4 year.toNat
  else (if year < 0 then '-' else '+') :: paddedDigits 4 year.natAbs

/-- The characters of a date in the ISO form. -/
def chars (d : Date) : List Char :=
  yearText d.year ++ '-' :: paddedDigits 2 d.month ++ '-' :: paddedDigits 2 d.day

/-- The ISO form of a date. -/
def text (d : Date) : String := String.ofList d.chars

end Date

end FilterQuery
