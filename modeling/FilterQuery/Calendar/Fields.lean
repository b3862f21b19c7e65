/-
FilterQuery.Calendar.Fields — the parts of a date found in a text, and the
date they determine.

Each part that is read is checked against its own range and against an
earlier value of the same part. Which date or time the parts determine is
decided at the end: the first sufficient combination gives the date, and
every other part has to agree with it. The decision can fail in two ways
that have to be told apart, because a timestamp may make up for what is
missing, but not for what contradicts.
-/
import FilterQuery.Calendar.DateTime
import FilterQuery.Calendar.Pattern

namespace FilterQuery

namespace Calendar

/-- The parts of a date and a time as far as they are known. -/
structure Fields where
  year : Option Int := none
  century : Option Int := none
  yearOfCentury : Option Int := none
  isoYear : Option Int := none
  isoYearOfCentury : Option Int := none
  quarter : Option Nat := none
  month : Option Nat := none
  day : Option Nat := none
  ordinal : Option Nat := none
  weekFromSunday : Option Nat := none
  weekFromMonday : Option Nat := none
  isoWeek : Option Nat := none
  weekday : Option Nat := none
  /-- Whether the time is after noon. -/
  afternoon : Option Bool := none
  /-- The hour of the half day, from 0 to 11. -/
  hour12 : Option Nat := none
  minute : Option Nat := none
  second : Option Nat := none
  nanosecond : Option Nat := none
  timestamp : Option Int := none
  /-- The distance from UTC in minutes. -/
  offset : Option Int := none
deriving DecidableEq, Repr

/-- A value besides an earlier one, with which it has to agree. -/
def agree {α : Type} [DecidableEq α] (old : Option α) (new : α) : Option (Option α) :=
  match old with
  | none => some (some new)
  | some x => if x = new then some (some x) else none

/-- A number within bounds. -/
def inRange (low high : Int) (v : Int) : Option Nat :=
  if low ≤ v ∧ v ≤ high then some v.toNat else none

/-- A year that fits 32 bits. -/
def inYearRange (v : Int) : Option Int :=
  if -2147483648 ≤ v ∧ v ≤ 2147483647 then some v else none

namespace Fields

/-- Note the hour of the day. -/
def setHour (f : Fields) (v : Int) : Option Fields := do
  let h ← inRange 0 23 v
  let afternoon ← agree f.afternoon (12 ≤ h)
  let hour12 ← agree f.hour12 (h % 12)
  return { f with afternoon, hour12 }

/-- Note the weekday. -/
def setWeekday (f : Fields) (day : Nat) : Option Fields := do
  let weekday ← agree f.weekday day
  return { f with weekday }

/-- Note the month. -/
def setMonth (f : Fields) (v : Int) : Option Fields := do
  let month ← agree f.month (← inRange 1 12 v)
  return { f with month }

/-- Note the half of the day. -/
def setAfternoon (f : Fields) (b : Bool) : Option Fields := do
  let afternoon ← agree f.afternoon b
  return { f with afternoon }

/-- Note the nanoseconds of the second. -/
def setNanosecond (f : Fields) (v : Int) : Option Fields := do
  let nanosecond ← agree f.nanosecond (← inRange 0 999999999 v)
  return { f with nanosecond }

/-- Note the distance from UTC. -/
def setOffset (f : Fields) (minutes : Int) : Option Fields := do
  let offset ← agree f.offset minutes
  return { f with offset }

/-- Note a part that was written as a number. -/
def set (f : Fields) (part : NumericPart) (v : Int) : Option Fields :=
  match part with
  | .year => do return { f with year := ← agree f.year (← inYearRange v) }
  | .century => do return { f with century := ← agree f.century v }
  | .yearOfCentury => do return { f with yearOfCentury := ← agree f.yearOfCentury v }
  | .isoYear => do return { f with isoYear := ← agree f.isoYear (← inYearRange v) }
  | .isoYearOfCentury => do return { f with isoYearOfCentury := ← agree f.isoYearOfCentury v }
  | .quarter => do return { f with quarter := ← agree f.quarter (← inRange 1 4 v) }
  | .month => f.setMonth v
  | .day => do return { f with day := ← agree f.day (← inRange 1 31 v) }
  | .ordinal => do return { f with ordinal := ← agree f.ordinal (← inRange 1 366 v) }
  | .weekFromSunday => do
    return { f with weekFromSunday := ← agree f.weekFromSunday (← inRange 0 53 v) }
  | .weekFromMonday => do
    return { f with weekFromMonday := ← agree f.weekFromMonday (← inRange 0 53 v) }
  | .isoWeek => do return { f with isoWeek := ← agree f.isoWeek (← inRange 1 53 v) }
  | .weekdayFromSunday => do f.setWeekday (((← inRange 0 6 v) + 6) % 7)
  | .weekdayFromMonday => do f.setWeekday ((← inRange 1 7 v) - 1)
  | .hour => f.setHour v
  | .hour12 => do return { f with hour12 := ← agree f.hour12 ((← inRange 1 12 v) % 12) }
  | .minute => do return { f with minute := ← agree f.minute (← inRange 0 59 v) }
  | .second => do return { f with second := ← agree f.second (← inRange 0 60 v) }
  | .nanosecond => f.setNanosecond v
  | .timestamp => do return { f with timestamp := ← agree f.timestamp v }

end Fields

/-- Why parts do not determine a date or a time. -/
inductive Unresolved where
  /-- A part is missing. -/
  | incomplete
  /-- The parts contradict each other, or there is no such date or time. -/
  | conflict
deriving DecidableEq, Repr

/-- A value that has to exist. -/
def orConflict {α : Type} : Option α → Except Unresolved α
  | some x => .ok x
  | none => .error .conflict

/-- The year from a year, a century and a year of the century. With nothing
but the year of the century, the years from 1970 to 2069 are meant. -/
def resolveYear (year century yearOfCentury : Option Int) : Except Unresolved (Option Int) :=
  match year, century, yearOfCentury with
  | y, none, none => .ok y
  | some y, q, r =>
    if 0 ≤ y ∧ q.getD (y / 100) = y / 100 ∧ r.getD (y % 100) = y % 100 then .ok (some y)
    else .error .conflict
  | none, some q, some r => .ok (some (q * 100 + r))
  | none, none, some r => .ok (some (r + if r < 70 then 2000 else 1900))
  | none, some _, none => .error .incomplete

/-- Whether a part, if it is known, has the given value. -/
def fits {α : Type} [DecidableEq α] (known : Option α) (value : α) : Bool :=
  match known with
  | none => true
  | some x => x = value

/-- Whether a part of a year within its century, if it is known, has the
given value. Years before year 0 have no century. -/
def fitsInCentury (known : Option Int) (year value : Int) : Bool :=
  match known with
  | none => true
  | some x => 0 ≤ year && x == value

namespace Fields

/-- Whether all parts of a date that are known agree with a date. -/
def agreesWith (f : Fields) (d : Date) : Bool :=
  fits f.year d.year &&
    fitsInCentury f.century d.year (d.year / 100) &&
    fitsInCentury f.yearOfCentury d.year (d.year % 100) &&
    fits f.month d.month && fits f.day d.day &&
    fits f.isoYear d.isoYear &&
    fitsInCentury f.isoYearOfCentury d.isoYear (d.isoYear % 100) &&
    fits f.isoWeek d.isoWeek && fits f.weekday d.weekday &&
    fits f.ordinal d.ordinal &&
    fits f.weekFromSunday (d.weekFrom 6) && fits f.weekFromMonday (d.weekFrom 0) &&
    fits f.quarter d.quarter

/-- The date that the first sufficient combination of parts gives, given the
year and the ISO year. -/
def candidate (f : Fields) (year isoYear : Option Int) : Except Unresolved Date :=
  match year, f.month, f.day with
  | some y, some m, some d => orConflict (Date.of? y m d)
  | _, _, _ =>
  match year, f.ordinal with
  | some y, some n => orConflict (Date.ofOrdinal? y n)
  | _, _ =>
  match year, f.weekFromSunday, f.weekday with
  | some y, some w, some d => orConflict (Date.ofWeek? y w d 6)
  | _, _, _ =>
  match year, f.weekFromMonday, f.weekday with
  | some y, some w, some d => orConflict (Date.ofWeek? y w d 0)
  | _, _, _ =>
  match isoYear, f.isoWeek, f.weekday with
  | some y, some w, some d => orConflict (Date.ofIsoWeek? y w d)
  | _, _, _ => .error .incomplete

/-- The date that the parts determine. -/
def date (f : Fields) : Except Unresolved Date := do
  let year ← resolveYear f.year f.century f.yearOfCentury
  let isoYear ← resolveYear f.isoYear none f.isoYearOfCentury
  let d ← f.candidate year isoYear
  if f.agreesWith d then .ok d else .error .conflict

/-- The time of the day that the parts determine. Seconds may be missing,
but not if there is a fraction of one. -/
def time (f : Fields) : Except Unresolved TimeOfDay :=
  match f.afternoon, f.hour12, f.minute with
  | some afternoon, some hour12, some minute =>
    let hour := if afternoon then hour12 + 12 else hour12
    match f.second, f.nanosecond with
    | none, some _ => .error .incomplete
    | second, nano => orConflict (TimeOfDay.of? hour minute (second.getD 0) (nano.getD 0))
  | _, _, _ => .error .incomplete

/-- The second that a timestamp gives, and the date and time it stands for.
A second of 60 is kept where the timestamp is the second before it or the
second behind it. -/
def fillSecond (f : Fields) (timestamp : Int) (dt : DateTime) : Option (Fields × DateTime) :=
  if f.second = some 60 then
    if dt.time.second = 59 then some (f, dt)
    else if dt.time.second = 0 then
      (DateTime.ofTimestamp? (timestamp - 1)).map fun before => (f, before)
    else none
  else (f.set .second dt.time.second).map fun filled => (filled, dt)

/-- The parts with those that a timestamp gives. -/
def fillFromTimestamp (f : Fields) (timestamp : Int) : Option Fields := do
  let (f, dt) ← f.fillSecond timestamp (← DateTime.ofTimestamp? timestamp)
  let f ← f.set .year dt.date.year
  let f ← f.set .ordinal dt.date.ordinal
  let f ← f.setHour dt.time.hour
  f.set .minute dt.time.minute

/-- The date and time that the parts determine. A timestamp has to agree
with them, or, where something is merely missing, makes up for it. -/
def dateTime? (f : Fields) : Option DateTime :=
  match f.date, f.time, f.timestamp with
  | .ok date, .ok time, none => some ⟨date, time⟩
  | .ok date, .ok time, some t =>
    let dt : DateTime := ⟨date, time⟩
    if t = dt.timestamp ∨ (time.isLeap ∧ t = dt.timestamp + 1) then some dt else none
  | .error .conflict, _, _ => none
  | _, .error .conflict, _ => none
  | _, _, none => none
  | _, _, some t => do
    let f ← f.fillFromTimestamp t
    match f.date, f.time with
    | .ok date, .ok time => some ⟨date, time⟩
    | _, _ => none

end Fields

end Calendar

end FilterQuery
