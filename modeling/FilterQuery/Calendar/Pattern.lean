/-
FilterQuery.Calendar.Pattern — formats of written dates.

A format is a text in which a percent sign and what follows it stand for
a part of a date or a time, and everything else stands for itself. A
`Pattern` is the same thing as a list of items, one for each part. White
space in a format stands for any amount of white space.

`Pattern.ofText?` gives nothing for a format with a percent sign that
begins no part: such a format matches no text.
-/
import FilterQuery.Text.Character

namespace FilterQuery

namespace Calendar

/-- The parts of a date or a time that are written as numbers. -/
inductive NumericPart where
  | year
  | century
  | yearOfCentury
  | isoYear
  | isoYearOfCentury
  | quarter
  | month
  | day
  | ordinal
  /-- The week of the year, weeks beginning on Sunday. -/
  | weekFromSunday
  /-- The week of the year, weeks beginning on Monday. -/
  | weekFromMonday
  | isoWeek
  /-- The weekday from 0 for Sunday to 6. -/
  | weekdayFromSunday
  /-- The weekday from 1 for Monday to 7. -/
  | weekdayFromMonday
  | hour
  | hour12
  | minute
  | second
  | nanosecond
  /-- The number of seconds since the beginning of 1970. -/
  | timestamp
deriving DecidableEq, Repr

/-- The greatest number of digits of a part; `none` is no bound. -/
def NumericPart.width? : NumericPart → Option Nat
  | year | isoYear => some 4
  | ordinal => some 3
  | quarter | weekdayFromSunday | weekdayFromMonday => some 1
  | nanosecond => some 9
  | timestamp => none
  | _ => some 2

/-- Whether a part may be written with a sign, and then with any number of
digits. -/
def NumericPart.isSigned : NumericPart → Bool
  | year | isoYear => true
  | _ => false

/-- One part of a pattern. -/
inductive PatternItem where
  /-- A character that stands for itself. -/
  | literal (c : Char)
  /-- Any amount of white space. -/
  | space
  | numeric (part : NumericPart)
  /-- The first three letters of the name of a month. -/
  | monthAbbreviation
  /-- The name of a month, or its first three letters. -/
  | monthName
  /-- The first three letters of the name of a weekday. -/
  | weekdayAbbreviation
  /-- The name of a weekday, or its first three letters. -/
  | weekdayName
  /-- Before or after noon. -/
  | halfDay
  /-- A point and digits, if there is a point. -/
  | fraction
  /-- A point and exactly so many digits, if there is a point. -/
  | fixedFraction (digits : Nat)
  /-- Exactly so many digits of a fraction, with no point. -/
  | bareFraction (digits : Nat)
  /-- A distance from UTC. -/
  | offset
  /-- A distance from UTC that may be `Z` or lack its minutes. -/
  | looseOffset
  /-- Anything up to the next white space. -/
  | zoneName
  /-- A date, a time and a zone in the ISO form. -/
  | isoTimestamp
deriving DecidableEq, Repr

/-- A format as the list of its parts. -/
abbrev Pattern := List PatternItem

namespace Pattern

open PatternItem

/-- Month, day and year of the century, between slashes. -/
def monthDayYear : Pattern :=
  [numeric .month, literal '/', numeric .day, literal '/', numeric .yearOfCentury]

/-- Year, month and day, between hyphens. -/
def isoDate : Pattern :=
  [numeric .year, literal '-', numeric .month, literal '-', numeric .day]

/-- Hour and minute. -/
def hourMinute : Pattern := [numeric .hour, literal ':', numeric .minute]

/-- Hour, minute and second. -/
def clock : Pattern := hourMinute ++ [literal ':', numeric .second]

/-- Hour, minute and second of a half day, and which half. -/
def clock12 : Pattern :=
  [numeric .hour12, literal ':', numeric .minute, literal ':', numeric .second, space, halfDay]

/-- Weekday, month, day, time and year. -/
def full : Pattern :=
  [weekdayAbbreviation, space, monthAbbreviation, space, numeric .day, space] ++ clock ++
    [space, numeric .year]

/-- Day, month and year, between hyphens, the month by name. -/
def dayMonthYear : Pattern :=
  [numeric .day, literal '-', monthAbbreviation, literal '-', numeric .year]

/-- What a letter stands for behind a percent sign. -/
def ofLetter? : Char → Option Pattern
  | 'A' => some [weekdayName]
  | 'B' => some [monthName]
  | 'C' => some [numeric .century]
  | 'D' => some monthDayYear
  | 'F' => some isoDate
  | 'G' => some [numeric .isoYear]
  | 'H' => some [numeric .hour]
  | 'I' => some [numeric .hour12]
  | 'M' => some [numeric .minute]
  | 'P' => some [halfDay]
  | 'R' => some hourMinute
  | 'S' => some [numeric .second]
  | 'T' => some clock
  | 'U' => some [numeric .weekFromSunday]
  | 'V' => some [numeric .isoWeek]
  | 'W' => some [numeric .weekFromMonday]
  | 'X' => some clock
  | 'Y' => some [numeric .year]
  | 'Z' => some [zoneName]
  | 'a' => some [weekdayAbbreviation]
  | 'b' => some [monthAbbreviation]
  | 'c' => some full
  | 'd' => some [numeric .day]
  | 'e' => some [numeric .day]
  | 'f' => some [numeric .nanosecond]
  | 'g' => some [numeric .isoYearOfCentury]
  | 'h' => some [monthAbbreviation]
  | 'j' => some [numeric .ordinal]
  | 'k' => some [numeric .hour]
  | 'l' => some [numeric .hour12]
  | 'm' => some [numeric .month]
  | 'n' => some [space]
  | 'p' => some [halfDay]
  | 'q' => some [numeric .quarter]
  | 'r' => some clock12
  | 's' => some [numeric .timestamp]
  | 't' => some [space]
  | 'u' => some [numeric .weekdayFromMonday]
  | 'v' => some dayMonthYear
  | 'w' => some [numeric .weekdayFromSunday]
  | 'x' => some monthDayYear
  | 'y' => some [numeric .yearOfCentury]
  | 'z' => some [offset]
  | '+' => some [isoTimestamp]
  | '%' => some [literal '%']
  | _ => none

/-- What a letter stands for behind a percent sign and a padding mark, which
only goes with a single number and has no effect on reading. -/
def ofPaddedLetter? (c : Char) : Option Pattern :=
  match ofLetter? c with
  | some [numeric part] => some [numeric part]
  | _ => none

/-- What stands behind a percent sign, and the text after it. -/
def specifier? (cs : List Char) : Option (Pattern × List Char) :=
  match cs with
  | '-' :: c :: rest => (ofPaddedLetter? c).map (·, rest)
  | '_' :: c :: rest => (ofPaddedLetter? c).map (·, rest)
  | '0' :: c :: rest => (ofPaddedLetter? c).map (·, rest)
  | '#' :: 'z' :: rest => some ([looseOffset], rest)
  | ':' :: ':' :: ':' :: 'z' :: rest => some ([offset], rest)
  | ':' :: ':' :: 'z' :: rest => some ([offset], rest)
  | ':' :: 'z' :: rest => some ([offset], rest)
  | '.' :: 'f' :: rest => some ([fraction], rest)
  | '.' :: '3' :: 'f' :: rest => some ([fixedFraction 3], rest)
  | '.' :: '6' :: 'f' :: rest => some ([fixedFraction 6], rest)
  | '.' :: '9' :: 'f' :: rest => some ([fixedFraction 9], rest)
  | '3' :: 'f' :: rest => some ([bareFraction 3], rest)
  | '6' :: 'f' :: rest => some ([bareFraction 6], rest)
  | '9' :: 'f' :: rest => some ([bareFraction 9], rest)
  | c :: rest => (ofLetter? c).map (·, rest)
  | [] => none

theorem specifier?_length {cs rest : List Char} {p : Pattern}
    (h : specifier? cs = some (p, rest)) : rest.length < cs.length := by
  unfold specifier? at h
  split at h <;>
    simp only [Option.map_eq_some_iff, Option.some.injEq, Prod.mk.injEq, reduceCtorEq] at h <;>
    grind

/-- The pattern of a format. `done` holds the parts already found, latest
first. -/
def ofCharsFrom (done : Pattern) (cs : List Char) : Option Pattern :=
  match cs with
  | [] => some done.reverse
  | c :: rest =>
    if c = '%' then
      match h : specifier? rest with
      | none => none
      | some (p, behind) =>
        have := specifier?_length h
        ofCharsFrom (p.reverse ++ done) behind
    else if isBlank c then ofCharsFrom (space :: done) rest
    else ofCharsFrom (literal c :: done) rest
termination_by cs.length

/-- The pattern of a format, if every percent sign in it begins a part. -/
def ofText? (format : String) : Option Pattern := ofCharsFrom [] format.toList

end Pattern

end Calendar

end FilterQuery
